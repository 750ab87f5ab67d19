import Mathlib.Data.List.TakeWhile
import Microbench.Proofs.Text.Lines
import Microbench.Proofs.Text.Slices
import Microbench.Proofs.Wire.Stream

/-!
# The next line of a stream

Whatever a stream holds, its next line is what comes before the next line feed.  A line that is
ended and small enough is read, without the carriage return at its end.  Of a larger one no more
is looked at than one byte beyond the bound, so that the look may end inside of a character: then
the line is refused as if it were no text, and for its size only if it can be cut there.

## Main definitions

* `Line.withoutReturn` — a line as it is read.
* `ByteSource.remaining`, `ByteSource.upcoming` — the bytes to come, and those of the next line.

## Main results

* `ByteSource.readLine_of_small`, `ByteSource.readLine_of_large` — reading a line by its size.
* `ByteSource.readLine_classifies` — **what the next line is read as.**
-/

namespace Microbench

open Text (bytesOf)

/-- A line as it is read: without the carriage return at its end, if there is one. -/
def Line.withoutReturn (text : String) : String :=
  if text.toList.getLast? = some '\r' then String.ofList text.toList.dropLast else text

namespace ByteSource

/-- The bytes that are still to be read. -/
def remaining (s : ByteSource) : List UInt8 := s.bytes.data.toList.drop s.place

/-- The bytes of the next line: those before the next line feed, or all if there is none. -/
def upcoming (s : ByteSource) : List UInt8 := s.remaining.takeWhile (· != newline)

variable {s : ByteSource} {text : String}

/-! ### Carriage returns -/

theorem toByteArray_of_concat {front : List Char} {c : Char} (h : text.toList = front ++ [c]) :
    text.toByteArray = (String.ofList front).toByteArray ++ (String.ofList [c]).toByteArray := by
  rw [← String.toByteArray_append, ← String.ofList_append, ← h, String.ofList_toList]

/-- The last byte of a text is a carriage return exactly if its last character is one. -/
theorem get!_last_iff {front : List Char} {c : Char} (h : text.toList = front ++ [c]) :
    text.toByteArray.get! (text.toByteArray.size - 1) = carriageReturn ↔ c = '\r' := by
  have hbytes := toByteArray_of_concat h
  have hpos : 0 < (String.ofList [c]).toByteArray.size :=
    Nat.lt_of_lt_of_eq c.utf8Size_pos (String.utf8ByteSize_singleton (c := c)).symm
  obtain ⟨k, hk⟩ := Nat.exists_eq_add_of_le' hpos
  have hlast : text.toByteArray.get! (text.toByteArray.size - 1) =
      (String.ofList [c]).toByteArray.get! k := by
    rw [hbytes, ByteArray.size_append, hk, ← Nat.add_assoc, Nat.add_sub_cancel,
      get!_append_right (by omega)]
  rw [hlast]
  constructor
  · intro hreturn
    obtain ⟨c', hc', hcode⟩ := exists_mem_toList_of_get! (s := String.ofList [c]) (i := k)
      (by rw [String.toUTF8_eq_toByteArray]; omega)
      (by rw [String.toUTF8_eq_toByteArray, hreturn]; decide)
    rw [String.toUTF8_eq_toByteArray, hreturn] at hcode
    rw [String.toList_ofList, List.mem_singleton] at hc'
    exact hc' ▸ Char.toNat_inj.1 hcode
  · rintro rfl
    obtain rfl : k = 0 := by
      have hone : (String.ofList ['\r']).toByteArray.size = 1 := by decide
      omega
    decide

theorem dropReturn_toByteArray (text : String) :
    dropReturn text.toByteArray = (Line.withoutReturn text).toByteArray := by
  obtain hnil | ⟨front, c, hlast⟩ := text.toList.eq_nil_or_concat'
  · have hempty : text = "" := String.toList_eq_nil_iff.1 hnil
    rw [hempty]
    rfl
  · have hend : text.toList.getLast? = some c := by rw [hlast, List.getLast?_concat]
    by_cases hc : c = '\r'
    · have hbytes := toByteArray_of_concat hlast
      have hone : (String.ofList [c]).toByteArray.size = 1 := by
        rw [hc]
        decide
      have hsize := congrArg ByteArray.size hbytes
      rw [ByteArray.size_append, hone] at hsize
      rw [dropReturn, if_pos ⟨by omega, (get!_last_iff hlast).2 hc⟩, Line.withoutReturn,
        if_pos (hc ▸ hend), hlast, List.dropLast_concat, hsize, Nat.add_sub_cancel, hbytes]
      exact ByteArray.extract_append_eq_left rfl
    · have hkeep : text.toList.getLast? ≠ some '\r' := by
        rw [hend]
        exact fun h => hc (Option.some.inj h)
      rw [dropReturn, if_neg fun h => hc ((get!_last_iff hlast).1 h.2), Line.withoutReturn,
        if_neg hkeep]

/-- What a line of text is read as. -/
theorem ofBytes_toByteArray (text : String) :
    Line.ofBytes text.toByteArray = .ok (Line.withoutReturn text) := by
  have hread (t : String) : String.fromUTF8? t.toByteArray = some t := fromUTF8?_toUTF8 t
  rw [Line.ofBytes, hread, dropReturn_toByteArray, hread]

/-! ### The bytes to come -/

theorem forall_bne_of_notMem {bytes : List UInt8} (h : newline ∉ bytes) :
    ∀ b ∈ bytes, (b != newline) = true :=
  fun _ hb => bne_iff_ne.2 fun heq => h (heq ▸ hb)

/-- The next line is followed by the next line feed, or there is none and the line is all. -/
theorem remaining_eq (s : ByteSource) :
    (∃ more, s.remaining = s.upcoming ++ newline :: more) ∨
      newline ∉ s.remaining ∧ s.remaining = s.upcoming := by
  by_cases h : newline ∈ s.remaining
  · obtain ⟨line, more, hremaining, hline⟩ := List.eq_append_cons_of_mem h
    have hupcoming : s.upcoming = line := by
      rw [upcoming, hremaining, List.takeWhile_append_of_pos (forall_bne_of_notMem hline),
        List.takeWhile_cons_of_neg (by simp), List.append_nil]
    exact .inl ⟨more, by rw [hupcoming, hremaining]⟩
  · exact .inr ⟨h, (List.takeWhile_eq_self_iff.2 (forall_bne_of_notMem h)).symm⟩

theorem newline_notMem_upcoming (s : ByteSource) : newline ∉ s.upcoming := by
  intro h
  exact bne_iff_ne.1 (List.mem_takeWhile_imp (p := fun b => b != newline) h) rfl

theorem unbroken_of_upcoming (h : s.upcoming = bytesOf text) : Unbroken text.toByteArray := by
  intro i hi heq
  rw [get!_eq_getElem hi] at heq
  refine newline_notMem_upcoming s (h ▸ heq ▸ ?_)
  exact Array.mem_toList_iff.2 (Array.getElem_mem hi)

/-- What comes is a part of the stream. -/
theorem bytes_of_remaining {line rest : ByteArray} (hplace : s.place ≤ s.bytes.size)
    (h : s.remaining = line.data.toList ++ rest.data.toList) :
    s.bytes = s.bytes.extract 0 s.place ++ (line ++ rest) ∧
      s.place = (s.bytes.extract 0 s.place).size := by
  have hread : (s.bytes.extract 0 s.place).data.toList = s.bytes.data.toList.take s.place := by
    simp [ByteArray.data_extract]
  constructor
  · refine ByteArray.ext (Array.toList_inj.1 ?_)
    rw [ByteArray.data_append, Array.toList_append, ByteArray.data_append, Array.toList_append,
      hread, ← h, remaining, List.take_append_drop]
  · rw [ByteArray.size_extract]
    omega

theorem place_le_of_remaining (h : s.remaining ≠ []) : s.place ≤ s.bytes.size := by
  by_contra hbeyond
  refine h (List.drop_eq_nil_of_le ?_)
  rw [Array.length_toList, ByteArray.size_data]
  omega

theorem length_bytesOf (text : String) : (bytesOf text).length = text.utf8ByteSize :=
  Array.length_toList

/-- What is to come when so many bytes have been used up. -/
theorem remaining_advance {place n : Nat} (h : place = s.place + n) :
    ({ s with place, asked := true } : ByteSource).remaining = s.remaining.drop n := by
  rw [remaining, remaining, List.drop_drop, h]

/-! ### Reading the next line -/

/-- A line that is small enough is read with its end. -/
theorem readLine_of_small (h : s.upcoming = bytesOf text) {more : List UInt8}
    (hended : s.remaining = s.upcoming ++ newline :: more)
    (hsmall : text.utf8ByteSize ≤ Line.maxSize) :
    s.readLine.1 = .ok (Line.withoutReturn text) ∧
      s.readLine.2.remaining = s.remaining.drop (text.utf8ByteSize + 1) := by
  have hplace := place_le_of_remaining (s := s) (by rw [hended]; simp)
  have hline : s.remaining = text.toByteArray.data.toList ++
      ("\n".toUTF8 ++ ⟨more.toArray⟩ : ByteArray).data.toList := by
    rw [hended, h, ByteArray.data_append, Array.toList_append]
    rfl
  obtain ⟨hbytes, hread⟩ := bytes_of_remaining hplace hline
  rw [readLine_of_line hbytes hread (unbroken_of_upcoming h) hsmall, ofBytes_toByteArray]
  exact ⟨rfl, remaining_advance (Nat.add_assoc _ _ _)⟩

/-- A line without an end is used up. -/
theorem readLine_of_rest (h : s.upcoming = bytesOf text) (hall : s.remaining = s.upcoming)
    (hsmall : text.utf8ByteSize ≤ Line.maxSize) :
    s.readLine.1 = .error .ended ∧ s.readLine.2.remaining = [] := by
  by_cases hplace : s.place ≤ s.bytes.size
  · have hline : s.remaining = text.toByteArray.data.toList ++
        (ByteArray.empty).data.toList := by
      rw [hall, h]
      exact (List.append_nil _).symm
    obtain ⟨hbytes, hread⟩ := bytes_of_remaining hplace hline
    rw [ByteArray.append_empty] at hbytes
    rw [readLine_of_unended hbytes hread (unbroken_of_upcoming h) hsmall text.isValidUTF8]
    refine ⟨rfl, (remaining_advance rfl).trans ?_⟩
    rw [hall, h]
    exact List.drop_length
  · have hstop : min s.bytes.size (s.place + Line.maxSize + 1) = s.bytes.size := by omega
    have hfind : findEnd s.bytes s.bytes.size s.place = none := by
      rw [findEnd, if_neg (by omega)]
    unfold readLine
    dsimp only
    rw [hstop, hfind]
    dsimp only
    rw [if_pos (by omega)]
    exact ⟨rfl, List.drop_eq_nil_of_le (Nat.le_refl _)⟩

/-- Of a line that is too large the bytes up to one beyond the bound are used up. -/
theorem readLine_of_large (h : s.upcoming = bytesOf text)
    (hlarge : Line.maxSize < text.utf8ByteSize) :
    s.readLine.1 = .error
        (if String.Pos.Raw.isValid text ⟨Line.maxSize + 1⟩ then .tooLarge else .notText) ∧
      s.readLine.2.remaining = s.remaining.drop (Line.maxSize + 1) := by
  have hnonempty : s.remaining ≠ [] := by
    intro hnil
    have hlength := congrArg List.length h
    rw [upcoming, hnil, List.takeWhile_nil, List.length_nil, length_bytesOf] at hlength
    omega
  have hline : s.remaining = text.toByteArray.data.toList ++
      (ByteArray.mk (s.remaining.dropWhile (· != newline)).toArray).data.toList := by
    have hsplit := List.takeWhile_append_dropWhile (p := (· != newline)) (l := s.remaining)
    exact hsplit.symm.trans (congrArg (· ++ _) h)
  obtain ⟨hbytes, hread⟩ := bytes_of_remaining (place_le_of_remaining hnonempty) hline
  have hcut : (String.fromUTF8? (text.toByteArray.extract 0 (Line.maxSize + 1))).isSome =
      String.Pos.Raw.isValid text ⟨Line.maxSize + 1⟩ := by
    rw [Bool.eq_iff_iff, String.Pos.Raw.isValid_eq_true_iff,
      String.Pos.Raw.isValid_iff_isValidUTF8_extract_zero, String.fromUTF8?]
    have hwithin : (⟨Line.maxSize + 1⟩ : String.Pos.Raw) ≤ text.rawEndPos := hlarge
    by_cases hvalid : (text.toByteArray.extract 0 (Line.maxSize + 1)).IsValidUTF8
    · simp [hvalid, hwithin]
    · simp [hvalid]
  rw [readLine_of_cut hbytes hread (unbroken_of_upcoming h) hlarge, hcut]
  exact ⟨rfl, remaining_advance (Nat.add_assoc _ _ _)⟩

/-- **What the next line is read as**, whatever the stream holds, if the line is text.  It is read,
without the carriage return at its end, exactly if it is ended and small enough, and refused as
ended too early exactly if it is small enough and not ended.  If it is too large it is refused for
its size exactly if it can be cut one byte beyond the bound, and otherwise for not being text.  The
line is used up with its end, or up to one byte beyond the bound. -/
theorem readLine_classifies (h : s.upcoming = bytesOf text) :
    (∀ line, s.readLine.1 = .ok line ↔
      newline ∈ s.remaining ∧ text.utf8ByteSize ≤ Line.maxSize ∧
        line = Line.withoutReturn text) ∧
    (s.readLine.1 = .error .ended ↔
      newline ∉ s.remaining ∧ text.utf8ByteSize ≤ Line.maxSize) ∧
    (s.readLine.1 = .error .tooLarge ↔
      Line.maxSize < text.utf8ByteSize ∧ String.Pos.Raw.IsValid text ⟨Line.maxSize + 1⟩) ∧
    (s.readLine.1 = .error .notText ↔
      Line.maxSize < text.utf8ByteSize ∧ ¬ String.Pos.Raw.IsValid text ⟨Line.maxSize + 1⟩) ∧
    s.readLine.2.remaining = s.remaining.drop (min text.utf8ByteSize Line.maxSize + 1) := by
  obtain hlarge | hsmall := Nat.lt_or_ge Line.maxSize text.utf8ByteSize
  · obtain ⟨hanswer, hrest⟩ := readLine_of_large h hlarge
    rw [Nat.min_eq_right hlarge.le, ← String.Pos.Raw.isValid_eq_true_iff, hanswer]
    cases String.Pos.Raw.isValid text ⟨Line.maxSize + 1⟩ <;>
      simp [hlarge, hrest, Nat.not_le.2 hlarge]
  · rw [Nat.min_eq_left hsmall]
    obtain ⟨more, hended⟩ | ⟨hnone, hall⟩ := s.remaining_eq
    · obtain ⟨hanswer, hrest⟩ := readLine_of_small h hended hsmall
      have hmem : newline ∈ s.remaining := by rw [hended]; simp
      rw [hanswer]
      simp [hmem, hsmall, hrest, Nat.not_lt.2 hsmall, eq_comm]
    · obtain ⟨hanswer, hrest⟩ := readLine_of_rest h hall hsmall
      have hlength : s.remaining.length ≤ text.utf8ByteSize + 1 := by
        rw [hall, h, length_bytesOf]
        exact Nat.le_succ _
      rw [hanswer]
      simp [hnone, hsmall, hrest, Nat.not_lt.2 hsmall, hlength]

/-! ### A line that is cut inside of a character -/

/-- A stream of lines has the first of them next. -/
theorem Holds.upcoming_eq {line : String} {lines : List String} (h : s.Holds (line :: lines))
    (hline : Line.hasBreak line = false) : s.upcoming = bytesOf line ∧ newline ∈ s.remaining := by
  obtain ⟨read, hbytes, hplace⟩ := h
  have hnone : newline ∉ bytesOf line := by
    intro hmem
    obtain ⟨i, hi, heq⟩ := List.getElem_of_mem hmem
    have hsize : i < line.toUTF8.size := Nat.lt_of_lt_of_eq hi Array.length_toList
    refine (get!_toUTF8 hline hsize).1 ?_
    rw [get!_eq_getElem hsize, ← heq]
    rfl
  have hremaining : s.remaining = bytesOf line ++ newline :: (wire lines).data.toList := by
    rw [remaining, hbytes, hplace, wire_cons, ByteArray.data_append, Array.toList_append]
    refine (List.drop_left' Array.length_toList).trans ?_
    rw [ByteArray.data_append, Array.toList_append, String.toUTF8_eq_toByteArray,
      String.toByteArray_append, ByteArray.data_append, Array.toList_append, List.append_assoc]
    rfl
  refine ⟨?_, by rw [hremaining]; simp⟩
  rw [upcoming, hremaining, List.takeWhile_append_of_pos (forall_bne_of_notMem hnone),
    List.takeWhile_cons_of_neg (by simp), List.append_nil]

/-- A line in which every character has two bytes. -/
def wide (n : Nat) : String := String.ofList (List.replicate n 'é')

theorem utf8Len_replicate (n : Nat) : String.utf8Len (List.replicate n 'é') = 2 * n := by
  induction n with
  | zero => rfl
  | succ n ih =>
    have htwo : 'é'.utf8Size = 2 := by decide
    rw [List.replicate_succ, String.utf8Len_cons, ih, htwo]
    omega

theorem utf8ByteSize_wide (n : Nat) : (wide n).utf8ByteSize = 2 * n := by
  rw [← String.utf8Len_toList, wide, String.toList_ofList, utf8Len_replicate]

theorem hasBreak_wide (n : Nat) : Line.hasBreak (wide n) = false := by
  rw [hasBreak_eq_false, wide, String.toList_ofList]
  exact .replicate n (by decide)

/-- After an odd number of bytes it cannot be cut. -/
theorem even_of_isValid_wide {n place : Nat} (h : String.Pos.Raw.IsValid (wide n) ⟨place⟩) :
    place % 2 = 0 := by
  obtain ⟨before, after, hsplit, rfl⟩ :=
    Text.exists_of_isValid (String.Pos.Raw.isValid_eq_true_iff.2 h)
  obtain ⟨-, hfront, -⟩ := List.append_eq_replicate_iff.1 hsplit.symm
  rw [hfront, utf8Len_replicate]
  omega

/-- The bound and one byte more end inside of a character, so the line is no text, and not too
large. -/
theorem readLine_classifies_wide :
    let s : ByteSource := { bytes := wire [wide 8388609] }
    s.upcoming = bytesOf (wide 8388609) ∧ newline ∈ s.remaining ∧
      Line.maxSize < (wide 8388609).utf8ByteSize ∧ s.readLine.1 = .error .notText := by
  intro s
  obtain ⟨hnext, hended⟩ := (holds_wire [wide 8388609]).upcoming_eq (hasBreak_wide _)
  have hlarge : Line.maxSize < (wide 8388609).utf8ByteSize := by
    rw [utf8ByteSize_wide]
    decide
  obtain ⟨-, -, -, hnotText, -⟩ := readLine_classifies hnext
  refine ⟨hnext, hended, hlarge, hnotText.2 ⟨hlarge, fun hvalid => ?_⟩⟩
  exact absurd (even_of_isValid_wide hvalid) (by decide)

end ByteSource

end Microbench
