import Microbench.Proofs.Spec.RoundTrip
import Microbench.Proofs.Worlds

/-!
# The canonical line of what has been read

Many lines read as the same specification: a mode has several names, a duration can
be given in any unit, a number may carry a sign, and a key of a dictionary may occur
twice.  Whatever the reader accepts it turns into a specification whose durations
fit 64 bits, which is all that its own line asks for.  So reading a line and writing it
again brings every line to one form, in which it stays.

## Main results

* `fits_of_ofCells` — no field that is read holds a duration that does not fit.
* `exists_decode_iff` — the specifications that some line reads as.
* `decode_canonicalises` — **what has been read is read again from its own line.**
-/

namespace Microbench

namespace Duration

/-- A duration that has been read fits 64 bits of nanoseconds. -/
theorem nanos_le_of_parseExact {s : String} {d : Duration} (h : parseExact s = some d) :
    d.nanos ≤ maxNanos := by
  simp only [parseExact, Option.bind_eq_bind, Option.bind_eq_some_iff] at h
  obtain ⟨value, -, scale, -, hfits⟩ := h
  by_cases hle : value * scale ≤ maxNanos
  · rw [if_pos hle] at hfits
    cases hfits
    exact hle
  · rw [if_neg hle] at hfits
    cases hfits

end Duration

namespace Spec

open Token

/-! ### What a cell can hold -/

/-- A field that has been read was accepted by its reader. -/
theorem read_of_readField {α : Type} {cells : List (List Token)} {place : Nat}
    {read : List Token → Except FieldError α} {a : α} (h : readField cells place read = .ok a) :
    read (cells.getD place []) = .ok a := by
  rw [readField] at h
  split at h
  · next hread => rw [hread, Except.ok.inj h]
  · cases h

/-- A duration that has been read fits. -/
theorem nanos_le_of_readDuration {ts : List Token} {d : Duration}
    (h : readDuration ts = .ok d) : d.nanos ≤ Duration.maxNanos := by
  obtain ⟨text, -, hparse⟩ := exists_of_bind_ok h
  split at hparse
  · next hsome =>
    cases hparse
    exact Duration.nanos_le_of_parseExact hsome
  · cases hparse

/-- A duration that is given and has been read fits; one that is not given does so too. -/
theorem overlong_of_readOptional {ts : List Token} {time : Option Duration}
    (h : readOptional readDuration ts = .ok time) : overlong time = none := by
  rw [readOptional] at h
  by_cases habsent : ts = [mark .absent]
  · rw [if_pos habsent] at h
    cases h
    rfl
  · rw [if_neg habsent] at h
    cases hread : readDuration ts with
    | error e =>
      rw [hread] at h
      cases h
    | ok d =>
      rw [hread] at h
      cases h
      simp [overlong, Option.filter, nanos_le_of_readDuration hread]

/-- The durations of a specification are read from their own cells. -/
theorem times_of_ofCells {cells : List (List Token)} {s : Spec} (h : ofCells cells = .ok s) :
    readField cells 5 (readOptional readDuration) = .ok s.warmup.time ∧
      readField cells 8 (readOptional readDuration) = .ok s.measurement.time ∧
      readField cells 20 (readOptional readDuration) = .ok s.timeout := by
  -- all fields have been read, one after the other
  iterate 5 obtain ⟨_, -, h⟩ := exists_of_bind_ok h
  obtain ⟨warmup, hwarmup, h⟩ := exists_of_bind_ok h
  iterate 2 obtain ⟨_, -, h⟩ := exists_of_bind_ok h
  obtain ⟨measurement, hmeasurement, h⟩ := exists_of_bind_ok h
  iterate 11 obtain ⟨_, -, h⟩ := exists_of_bind_ok h
  obtain ⟨timeout, htimeout, h⟩ := exists_of_bind_ok h
  obtain ⟨_, -, h⟩ := exists_of_bind_ok h
  cases h
  exact ⟨hwarmup, hmeasurement, htimeout⟩

/-- No specification that has been read holds a duration that does not fit. -/
theorem fits_of_ofCells {cells : List (List Token)} {s : Spec} (h : ofCells cells = .ok s) :
    s.overlong? = none := by
  obtain ⟨hwarmup, hmeasurement, htimeout⟩ := times_of_ofCells h
  simp only [overlong?, times, List.findSome?_cons, List.findSome?_nil,
    overlong_of_readOptional (read_of_readField hwarmup),
    overlong_of_readOptional (read_of_readField hmeasurement),
    overlong_of_readOptional (read_of_readField htimeout), Option.map_none]

/-! ### What a line can be read as -/

/-- Whatever line a specification has been read from, its durations fit. -/
theorem fits_of_decode {line : String} {s : Spec} (h : decode line = .ok s) :
    s.overlong? = none := by
  rw [decode] at h
  split at h
  · cases h
  · dsimp only at h
    split at h
    · exact fits_of_ofCells h
    · cases h

/-- A specification is read from some line exactly if its durations fit. -/
theorem exists_decode_iff (s : Spec) : (∃ line, decode line = .ok s) ↔ s.overlong? = none := by
  constructor
  · rintro ⟨line, h⟩
    exact fits_of_decode h
  · intro hfits
    exact ⟨s.encode, by rw [decode_encode, hfits]⟩

/-- **What has been read is read again from its own line**, with all its settings, whatever the
line looked like from which it was read.  That line is the last: written once more, what is
read from it is the same line. -/
theorem decode_canonicalises {line : String} {s : Spec} (h : decode line = .ok s) :
    decode s.encode = .ok s ∧ ∀ again, decode s.encode = .ok again → again.encode = s.encode := by
  have hread : decode s.encode = .ok s := by rw [decode_encode, fits_of_decode h]
  refine ⟨hread, fun again hagain => ?_⟩
  cases hread.symm.trans hagain
  rfl

/-- The cells of a line as somebody may have typed it: another name of the mode between blanks,
numbers with a sign or a zero in front, durations in a small unit, a key that occurs twice. -/
def typedCells : List (List Token) :=
  let word (s : String) : Token := text s.toList
  [[word "queue"], [word " AverageTime "], [word "+2", mark .item, word "03"], [mark .absent],
   [word "+5"], [word "90000ms"], [mark .absent],
   [mark .absent], [word "0min"], [mark .absent],
   [mark .absent], [mark .absent], [mark .empty], [], [mark .absent], [mark .absent],
   [word "µs "],
   [word "size", mark .key, word "16", mark .entry, word "kind", mark .key, word "fifo",
    mark .entry, word "size", mark .key, word "64"],
   [mark .absent], [mark .absent], [word " 1000us"], [mark .absent]]

/-- The line of these cells. -/
def typed : String := String.ofList (line ([mark .field].intercalate typedCells))

/-- The specification that is meant. -/
def meant : Spec where
  name := "queue"
  mode := .averageTime
  groupSizes := [2, 3]
  warmup := { iterations := some 5, time := some ⟨90000000000⟩ }
  measurement := { time := some ⟨0⟩ }
  launch := { args := some [], before := some [""] }
  unit := some .microseconds
  bindings := Dict.ofList [("kind", "fifo"), ("size", "64")]
  timeout := some ⟨1000000⟩

theorem ofCells_typedCells : ofCells typedCells = .ok meant := by
  have hread : (ofCells typedCells).toOption = some meant := by decide +kernel
  cases h : ofCells typedCells with
  | error e =>
    rw [h] at hread
    cases hread
  | ok s =>
    rw [h] at hread
    exact congrArg Except.ok (Option.some.inj hread)

theorem decode_typed : decode typed = .ok meant := by
  have hscan : scan typed.toList = .ok ([mark .field].intercalate typedCells) := by
    rw [typed, String.toList_ofList]
    exact scan_line (by simp [typedCells, List.intercalate, Token.Normal, startsWithText])
  have hsplit : split .field ([mark .field].intercalate typedCells) = typedCells :=
    split_intercalate (by simp [typedCells]) (by decide)
  rw [decode, hscan]
  simp only [hsplit]
  exact ofCells_typedCells

/-- The typed line becomes the line of what is meant, which is another one. -/
theorem decode_canonicalises_typed : typed ≠ meant.encode ∧ decode typed = .ok meant ∧
    decode meant.encode = .ok meant ∧
    ∀ again, decode meant.encode = .ok again → again.encode = meant.encode :=
  ⟨by decide +kernel, decode_typed, decode_canonicalises decode_typed⟩

end Spec

end Microbench
