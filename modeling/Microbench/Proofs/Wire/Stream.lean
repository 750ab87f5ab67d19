import Microbench.Proofs.Wire.Framing

/-!
# Lines on a stream

A stream that holds lines one after the other gives them back one after the other:
no byte of a line is the one that ends it, and what is read is the text that was
written.

## Main definitions

* `Line.Fits` — a text that may be written as a line.
* `Line.ofBytes` — what the bytes of a line are read as.
* `ByteSource.wire` — lines as bytes.
* `ByteSource.Holds` — what is left of a stream are these lines.
* `ByteSource.after`, `ByteSource.line` — what is left after so many lines, and the next one.

## Main results

* `readLine_of_line`, `readLine_of_cut`, `readLine_of_unended` — reading whatever bytes a line has.
* `Holds.readLine_cons`, `Holds.readLine_nil` — reading from a stream that holds lines.
* `readLine_advances` — every line that is read takes the stream further.
-/

namespace Microbench

namespace Line

/-- A text that may be written as a line. -/
structure Fits (s : String) : Prop where
  /-- It does not break. -/
  unbroken : hasBreak s = false
  /-- It is not too large. -/
  small : s.utf8ByteSize ≤ maxSize

theorem check_of_fits {s : String} (h : Fits s) : check s = .ok (s ++ "\n") := by
  rw [check, h.unbroken, if_neg Bool.false_ne_true, if_neg (Nat.not_lt.2 h.small)]

/-- Without a line break it is only the size that matters. -/
theorem check_of_unbroken {s : String} (h : hasBreak s = false) :
    check s = if maxSize < s.utf8ByteSize then .error .tooLarge else .ok (s ++ "\n") := by
  rw [check, h, if_neg Bool.false_ne_true]

end Line

/-- Commands are lines. -/
theorem Command.fits_line (c : Command) : Line.Fits c.line := by
  cases c <;> exact ⟨hasBreak_eq_false.2 (by decide +kernel), by decide +kernel⟩

/-! ### Bytes of texts -/

/-- A byte of a character that is an ASCII code is the code of the character. -/
theorem toNat_of_mem_utf8EncodeChar {c : Char} {b : UInt8} (h : b ∈ String.utf8EncodeChar c)
    (hb : b.toNat < 128) : b.toNat = c.toNat := by
  have hc : c.val.toNat = c.toNat := rfl
  unfold String.utf8EncodeChar at h
  dsimp only at h
  rw [hc] at h
  -- a character of several bytes has none below 128
  split at h
  · obtain rfl := List.mem_singleton.1 h
    rw [UInt8.toNat_ofNat']
    omega
  · split at h
    · simp only [List.mem_cons, List.not_mem_nil, or_false] at h
      rcases h with rfl | rfl <;> rw [UInt8.toNat_ofNat'] at hb <;> omega
    · split at h
      · simp only [List.mem_cons, List.not_mem_nil, or_false] at h
        rcases h with rfl | rfl | rfl <;> rw [UInt8.toNat_ofNat'] at hb <;> omega
      · simp only [List.mem_cons, List.not_mem_nil, or_false] at h
        rcases h with rfl | rfl | rfl | rfl <;> rw [UInt8.toNat_ofNat'] at hb <;> omega

namespace ByteSource

theorem get!_eq_getElem {bytes : ByteArray} {i : Nat} (h : i < bytes.size) :
    bytes.get! i = bytes[i] := getElem!_pos bytes.data i h

theorem get!_append_left {a b : ByteArray} {i : Nat} (h : i < a.size) :
    (a ++ b).get! i = a.get! i := by
  have hi : i < (a ++ b).size := by
    rw [ByteArray.size_append]
    omega
  rw [get!_eq_getElem hi, get!_eq_getElem h, ByteArray.getElem_append_left h]

theorem get!_append_right {a b : ByteArray} {i : Nat} (h : i < b.size) :
    (a ++ b).get! (a.size + i) = b.get! i := by
  have hi : a.size + i < (a ++ b).size := by
    rw [ByteArray.size_append]
    omega
  rw [get!_eq_getElem hi, get!_eq_getElem h, ByteArray.getElem_append_right (by omega)]
  congr 1
  omega

/-- A byte of a text that is an ASCII code stands for a character of the text. -/
theorem exists_mem_toList_of_get! {s : String} {i : Nat} (hi : i < s.toUTF8.size)
    (hb : (s.toUTF8.get! i).toNat < 128) : ∃ c ∈ s.toList, c.toNat = (s.toUTF8.get! i).toNat := by
  have hbytes : s.toUTF8 = (s.toList.flatMap String.utf8EncodeChar).toByteArray := by
    rw [String.toUTF8_eq_toByteArray, ← String.utf8Encode_toList, List.utf8Encode]
  rw [get!_eq_getElem hi] at hb ⊢
  obtain ⟨c, hc, hmem⟩ : ∃ c ∈ s.toList, s.toUTF8[i] ∈ String.utf8EncodeChar c := by
    simp only [hbytes, List.getElem_toByteArray]
    exact List.mem_flatMap.1 (List.getElem_mem _)
  exact ⟨c, hc, (toNat_of_mem_utf8EncodeChar hmem hb).symm⟩

/-- The bytes of a text without line breaks end no line. -/
theorem get!_toUTF8 {s : String} (h : Line.hasBreak s = false) {i : Nat}
    (hi : i < s.toUTF8.size) : s.toUTF8.get! i ≠ newline ∧ s.toUTF8.get! i ≠ carriageReturn := by
  have hne := hasBreak_eq_false.1 h
  constructor
  · intro heq
    obtain ⟨c, hc, hcode⟩ := exists_mem_toList_of_get! hi (by rw [heq]; decide)
    rw [heq] at hcode
    exact (hne c hc).1 (Char.toNat_inj.1 hcode)
  · intro heq
    obtain ⟨c, hc, hcode⟩ := exists_mem_toList_of_get! hi (by rw [heq]; decide)
    rw [heq] at hcode
    exact (hne c hc).2 (Char.toNat_inj.1 hcode)

/-- A text is read from its bytes. -/
theorem fromUTF8?_toUTF8 (s : String) : String.fromUTF8? s.toUTF8 = some s := by
  unfold String.fromUTF8?
  rw [String.toUTF8_eq_toByteArray, dif_pos s.isValidUTF8]
  rfl

theorem dropReturn_toUTF8 {s : String} (h : Line.hasBreak s = false) :
    dropReturn s.toUTF8 = s.toUTF8 := by
  unfold dropReturn
  by_cases hpos : 0 < s.toUTF8.size
  · have hlast := (get!_toUTF8 h (i := s.toUTF8.size - 1) (by omega)).2
    rw [if_neg fun hand => hlast hand.2]
  · rw [if_neg fun hand => hpos hand.1]

/-! ### The end of a line -/

theorem findEnd_bounds {bytes : ByteArray} {stop i j : Nat} (h : findEnd bytes stop i = some j) :
    i ≤ j ∧ j < stop := by
  fun_induction findEnd bytes stop i with
  | case1 i hi hend =>
    obtain rfl := Option.some.inj h
    exact ⟨Nat.le_refl _, hi⟩
  | case2 i hi hend ih =>
    have := ih h
    omega
  | case3 i hi => cases h

theorem findEnd_newline {bytes : ByteArray} {stop i j : Nat} (h : findEnd bytes stop i = some j) :
    bytes.get! j = newline := by
  fun_induction findEnd bytes stop i with
  | case1 i hi hend =>
    obtain rfl := Option.some.inj h
    exact beq_iff_eq.1 hend
  | case2 i hi hend ih => exact ih h
  | case3 i hi => cases h

/-- The first byte that ends a line is found. -/
theorem findEnd_eq {bytes : ByteArray} {stop i j : Nat} (hi : i ≤ j) (hj : j < stop)
    (hend : bytes.get! j = newline) (hbefore : ∀ k, i ≤ k → k < j → bytes.get! k ≠ newline) :
    findEnd bytes stop i = some j := by
  fun_induction findEnd bytes stop i with
  | case1 i hstop hnewline =>
    by_cases hij : i = j
    · rw [hij]
    · exact absurd (beq_iff_eq.1 hnewline) (hbefore i (Nat.le_refl _) (by omega))
  | case2 i hstop hnewline ih =>
    by_cases hij : i = j
    · subst hij
      exact absurd (beq_iff_eq.2 hend) hnewline
    · exact ih (by omega) fun k hk hkj => hbefore k (by omega) hkj
  | case3 i hstop => omega

/-- Where no byte ends a line there is no line end. -/
theorem findEnd_eq_none {bytes : ByteArray} {stop i : Nat}
    (h : ∀ k, i ≤ k → k < stop → bytes.get! k ≠ newline) : findEnd bytes stop i = none := by
  cases hfound : findEnd bytes stop i with
  | none => rfl
  | some j =>
    obtain ⟨hle, hlt⟩ := findEnd_bounds hfound
    exact absurd (findEnd_newline hfound) (h j hle hlt)

/-! ### Streams of lines -/

/-- Bytes that end no line before they are over. -/
def Unbroken (bytes : ByteArray) : Prop := ∀ i < bytes.size, bytes.get! i ≠ newline

/-- Within such bytes of a stream no line ends. -/
theorem Unbroken.get!_ne {bytes read line rest : ByteArray} (hline : Unbroken line)
    (hbytes : bytes = read ++ (line ++ rest)) {k : Nat} (hle : read.size ≤ k)
    (hlt : k < read.size + line.size) : bytes.get! k ≠ newline := by
  have hrest : (line ++ rest).size = line.size + rest.size := ByteArray.size_append
  obtain ⟨k, rfl⟩ := Nat.exists_eq_add_of_le hle
  rw [hbytes, get!_append_right (by omega), get!_append_left (by omega)]
  exact hline k (by omega)

end ByteSource

/-- What the bytes of a line, without its end, are read as. -/
def Line.ofBytes (bytes : ByteArray) : Except Line.Error String :=
  match String.fromUTF8? bytes with
  | none => .error .notText
  | some _ =>
    match String.fromUTF8? (ByteSource.dropReturn bytes) with
    | some line => .ok line
    | none => .error .notText

theorem Line.ofBytes_toUTF8 {s : String} (h : Line.hasBreak s = false) :
    Line.ofBytes s.toUTF8 = .ok s := by
  unfold Line.ofBytes
  rw [ByteSource.dropReturn_toUTF8 h, ByteSource.fromUTF8?_toUTF8]

namespace ByteSource

/-- Lines as bytes. -/
def wire : List String → ByteArray
  | [] => .empty
  | line :: lines => (line ++ "\n").toUTF8 ++ wire lines

/-- What is left of a stream are these lines. -/
def Holds (s : ByteSource) (lines : List String) : Prop :=
  ∃ read : ByteArray, s.bytes = read ++ wire lines ∧ s.place = read.size

@[simp] theorem wire_nil : wire [] = .empty := rfl

theorem wire_cons (line : String) (lines : List String) :
    wire (line :: lines) = (line ++ "\n").toUTF8 ++ wire lines := rfl

theorem wire_append (a b : List String) : wire (a ++ b) = wire a ++ wire b := by
  induction a with
  | nil => rw [List.nil_append, wire_nil, ByteArray.empty_append]
  | cons line a ih => rw [List.cons_append, wire_cons, wire_cons, ih, ByteArray.append_assoc]

/-- Reading a line of bytes up to its end. -/
theorem readLine_of_line {s : ByteSource} {read line rest : ByteArray}
    (hbytes : s.bytes = read ++ (line ++ ("\n".toUTF8 ++ rest))) (hplace : s.place = read.size)
    (hline : Unbroken line) (hsmall : line.size ≤ Line.maxSize) :
    s.readLine =
      (Line.ofBytes line, { s with place := s.place + line.size + 1, asked := true }) := by
  have hend : ("\n".toUTF8 ++ rest).size = 1 + rest.size := ByteArray.size_append
  have hrest : (line ++ ("\n".toUTF8 ++ rest)).size = line.size + (1 + rest.size) := by
    rw [ByteArray.size_append, hend]
  have htotal : s.bytes.size = read.size + (line.size + (1 + rest.size)) := by
    rw [hbytes, ByteArray.size_append, hrest]
  have hfind : findEnd s.bytes (min s.bytes.size (s.place + Line.maxSize + 1)) s.place =
      some (s.place + line.size) := by
    refine findEnd_eq (Nat.le_add_right _ _) (by omega) ?_ fun k hk hlt =>
      hline.get!_ne hbytes (by omega) (by omega)
    rw [hbytes, hplace, get!_append_right (by omega)]
    exact (get!_append_right (i := 0) (by omega)).trans (get!_append_left (by decide))
  have hextract : s.bytes.extract s.place (s.place + line.size) = line := by
    rw [hbytes, hplace]
    exact (ByteArray.extract_append_size_add (i := 0)).trans (ByteArray.extract_append_eq_left rfl)
  unfold readLine Line.ofBytes
  dsimp only
  rw [hfind]
  dsimp only
  rw [hextract]
  cases String.fromUTF8? line with
  | none => rfl
  | some _ => cases String.fromUTF8? (dropReturn line) <;> rfl

/-- Of a line that is too large one byte more than the bound is read, which may be in the middle of
a character.  If what has been read is a text the line is refused for its size, and else for not
being one. -/
theorem readLine_of_cut {s : ByteSource} {read line rest : ByteArray}
    (hbytes : s.bytes = read ++ (line ++ rest)) (hplace : s.place = read.size)
    (hline : Unbroken line) (hlarge : Line.maxSize < line.size) :
    s.readLine =
      (.error (if (String.fromUTF8? (line.extract 0 (Line.maxSize + 1))).isSome then .tooLarge
        else .notText),
      { s with place := s.place + Line.maxSize + 1, asked := true }) := by
  have hrest : (line ++ rest).size = line.size + rest.size := ByteArray.size_append
  have htotal : s.bytes.size = read.size + (line.size + rest.size) := by
    rw [hbytes, ByteArray.size_append, hrest]
  have hstop : min s.bytes.size (s.place + Line.maxSize + 1) = s.place + (Line.maxSize + 1) := by
    omega
  have hfind : findEnd s.bytes (s.place + (Line.maxSize + 1)) s.place = none :=
    findEnd_eq_none fun k hle hlt => hline.get!_ne hbytes (by omega) (by omega)
  have hextract : s.bytes.extract s.place (s.place + (Line.maxSize + 1)) =
      line.extract 0 (Line.maxSize + 1) := by
    have hshort : Line.maxSize + 1 - line.size = 0 := by omega
    rw [hbytes, hplace]
    refine (ByteArray.extract_append_size_add (i := 0)).trans ?_
    rw [ByteArray.extract_append, Nat.zero_sub, hshort, ByteArray.extract_same,
      ByteArray.append_empty]
  unfold readLine
  dsimp only
  rw [hstop, hfind]
  dsimp only
  rw [if_neg (by omega), hextract, ← Nat.add_assoc]
  cases String.fromUTF8? (line.extract 0 (Line.maxSize + 1)) with
  | none => rfl
  | some _ =>
    dsimp only
    rw [if_pos (by omega)]
    rfl

/-- A line that is too large is refused, for one reason or another. -/
theorem readLine_of_oversized {s : ByteSource} {read line rest : ByteArray}
    (hbytes : s.bytes = read ++ (line ++ rest)) (hplace : s.place = read.size)
    (hline : Unbroken line) (hlarge : Line.maxSize < line.size) :
    ∃ e, e ≠ .ended ∧ s.readLine.1 = .error e := by
  rw [readLine_of_cut hbytes hplace hline hlarge]
  refine ⟨_, ?_, rfl⟩
  split <;> decide

/-- A text that is not ended is not read, but used up. -/
theorem readLine_of_unended {s : ByteSource} {read line : ByteArray}
    (hbytes : s.bytes = read ++ line) (hplace : s.place = read.size) (hline : Unbroken line)
    (hsmall : line.size ≤ Line.maxSize) (htext : line.IsValidUTF8) :
    s.readLine = (.error .ended, { s with place := s.place + line.size, asked := true }) := by
  have htotal : s.bytes.size = read.size + line.size := by
    rw [hbytes, ByteArray.size_append]
  have hstop : min s.bytes.size (s.place + Line.maxSize + 1) = s.place + line.size := by omega
  have hnone : s.bytes = read ++ (line ++ .empty) := by rw [hbytes, ByteArray.append_empty]
  have hfind : findEnd s.bytes (s.place + line.size) s.place = none :=
    findEnd_eq_none fun k hle hlt => hline.get!_ne hnone (by omega) (by omega)
  have hextract : s.bytes.extract s.place (s.place + line.size) = line := by
    rw [hbytes, hplace]
    exact (ByteArray.extract_append_size_add (i := 0)).trans ByteArray.extract_zero_size
  have hread : String.fromUTF8? line = some (.fromUTF8 line htext) := dif_pos htext
  unfold readLine
  dsimp only
  rw [hstop, hfind]
  dsimp only
  split
  · rfl
  · rw [hextract, hread]
    dsimp only
    rw [if_neg (by omega)]

/-- A text that fits is read as it has been written. -/
theorem readLine_of_fits {s : ByteSource} {line : String} {read rest : ByteArray}
    (hline : Line.Fits line) (hbytes : s.bytes = read ++ ((line ++ "\n").toUTF8 ++ rest))
    (hplace : s.place = read.size) :
    s.readLine =
      (.ok line, { s with place := s.place + line.toUTF8.size + 1, asked := true }) := by
  have hparts : s.bytes = read ++ (line.toUTF8 ++ ("\n".toUTF8 ++ rest)) := by
    rw [hbytes]
    simp only [String.toUTF8_eq_toByteArray, String.toByteArray_append, ByteArray.append_assoc]
  rw [readLine_of_line hparts hplace (fun i hi => (get!_toUTF8 hline.unbroken hi).1) hline.small,
    Line.ofBytes_toUTF8 hline.unbroken]

/-- Reading a line that a stream holds gives the line and leaves the others. -/
theorem Holds.readLine_cons {s : ByteSource} {line : String} {lines : List String}
    (h : s.Holds (line :: lines)) (hline : Line.Fits line) :
    s.readLine.1 = .ok line ∧ s.readLine.2.Holds lines := by
  obtain ⟨read, hbytes, hplace⟩ := h
  rw [readLine_of_fits hline (by rw [hbytes, wire_cons]) hplace]
  refine ⟨rfl, read ++ (line ++ "\n").toUTF8, ?_, ?_⟩
  · show s.bytes = _
    rw [hbytes, wire_cons, ByteArray.append_assoc]
  · have hsize : (line ++ "\n").toUTF8.size = line.toUTF8.size + 1 := ByteArray.size_append
    show s.place + line.toUTF8.size + 1 = _
    rw [ByteArray.size_append, hsize, hplace, Nat.add_assoc]

/-- Where nothing is left, nothing is read. -/
theorem Holds.readLine_nil {s : ByteSource} (h : s.Holds []) :
    s.readLine.1 = .error .ended ∧ s.readLine.2.Holds [] := by
  obtain ⟨read, hbytes, hplace⟩ := h
  have hsize : s.bytes.size = s.place := by
    rw [hbytes, hplace, wire_nil, ByteArray.append_empty]
  have hstop : min s.bytes.size (s.place + Line.maxSize + 1) = s.place := by omega
  have hfind : findEnd s.bytes s.place s.place = none := by
    rw [findEnd, if_neg (Nat.lt_irrefl _)]
  unfold readLine
  dsimp only
  rw [hstop, hfind]
  dsimp only
  rw [if_pos (Nat.le_refl _)]
  exact ⟨rfl, read, hbytes, hplace⟩

/-- Lines that are written come after those that are there. -/
theorem Holds.write {s : ByteSource} {lines : List String} (h : s.Holds lines)
    (more : List String) : Holds { s with bytes := s.bytes ++ wire more } (lines ++ more) := by
  obtain ⟨read, hbytes, hplace⟩ := h
  refine ⟨read, ?_, hplace⟩
  show s.bytes ++ wire more = _
  rw [hbytes, wire_append, ByteArray.append_assoc]

/-- A stream of lines from which nothing has been read. -/
theorem holds_wire (lines : List String) : Holds { bytes := wire lines } lines :=
  ⟨.empty, ByteArray.empty_append.symm, rfl⟩

/-! ### Reading again and again -/

/-- What is left of a stream when so many lines have been read. -/
def after (s : ByteSource) : Nat → ByteSource
  | 0 => s
  | n + 1 => (s.after n).readLine.2

/-- What the reader gets when it reads once more after so many times. -/
def line (s : ByteSource) (n : Nat) : Except Line.Error String := (s.after n).readLine.1

theorem line_zero (s : ByteSource) : s.line 0 = s.readLine.1 := rfl

theorem after_succ (s : ByteSource) (n : Nat) : s.after (n + 1) = (s.after n).readLine.2 := rfl

/-- How many bytes are still to be read. -/
def left (s : ByteSource) : Nat := s.bytes.size - s.place

/-- Every line that is read takes the stream further. -/
theorem readLine_advances {s : ByteSource} {line : String} (h : s.readLine.1 = .ok line) :
    s.readLine.2.left < s.left := by
  unfold readLine at h ⊢
  dsimp only at h ⊢
  cases hfind : findEnd s.bytes (min s.bytes.size (s.place + Line.maxSize + 1)) s.place with
  | some i =>
    have hbounds := findEnd_bounds hfind
    have hleft : s.bytes.size - (i + 1) < s.bytes.size - s.place := by omega
    rw [hfind] at h
    dsimp only at h ⊢
    split
    · exact hleft
    · split <;> exact hleft
  | none =>
    exfalso
    rw [hfind] at h
    dsimp only at h
    split at h
    · cases h
    · split at h
      · cases h
      · split at h <;> cases h

end ByteSource

end Microbench
