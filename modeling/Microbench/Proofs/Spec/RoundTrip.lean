import Microbench.Proofs.Spec.Fields

/-!
# Specifications read back

The line of a specification is one line, whatever its texts hold, and is read as that
specification, with all its settings, unless one of its durations does not fit 64
bits of nanoseconds.  Then the reader names the first field with such a duration.

## Main definitions

* `Spec.overlong?` — the first duration that does not fit, with its field.
* `Spec.cells` — the tokens of all fields.

## Main results

* `decode_encode` — what the reader makes of the line.
* `encode_faithful` — **the line form loses nothing but durations beyond 64 bits.**
-/

namespace Microbench.Spec

open Token

/-- A duration that is given and does not fit 64 bits of nanoseconds. -/
def overlong (time : Option Duration) : Option Duration :=
  time.filter fun d => Duration.maxNanos < d.nanos

/-- The durations of a specification with their fields, in the order of the fields. -/
def times (s : Spec) : List (String × Option Duration) :=
  [("warmup_time", s.warmup.time), ("measurement_time", s.measurement.time), ("timeout", s.timeout)]

/-- The first duration that does not fit 64 bits of nanoseconds, with its field. -/
def overlong? (s : Spec) : Option (String × Duration) :=
  s.times.findSome? fun (field, time) => (overlong time).map fun d => (field, d)

/-- The tokens of all fields, in the order of the fields. -/
def cells (s : Spec) : List (List Token) :=
  let word32 (n : UInt32) := textTokens (Whole.text n.toNat)
  let word64 (n : UInt64) := textTokens (Whole.text n.toNat)
  let time (d : Duration) := textTokens d.exact
  let truth (b : Bool) := textTokens (boolText b)
  [textTokens s.name,
   textTokens s.mode.label,
   listTokens (s.groupSizes.map fun n => Whole.text n.toNat),
   optionalTokens word32 s.threads,
   optionalTokens word32 s.warmup.iterations,
   optionalTokens time s.warmup.time,
   optionalTokens word64 s.warmup.batch,
   optionalTokens word32 s.measurement.iterations,
   optionalTokens time s.measurement.time,
   optionalTokens word64 s.measurement.batch,
   optionalTokens word32 s.forks,
   optionalTokens word32 s.warmupForks,
   optionalTokens listTokens s.launch.args,
   optionalTokens listTokens s.launch.before,
   optionalTokens listTokens s.launch.after,
   optionalTokens (dictTokens listTokens) s.params,
   optionalTokens (fun u => textTokens u.suffix) s.unit,
   dictTokens textTokens s.bindings,
   optionalTokens truth s.syncIterations,
   optionalTokens truth s.failOnError,
   optionalTokens time s.timeout,
   optionalTokens truth s.scale]

/-! ### The line and its cells -/

/-- A setting that is a text if it is given. -/
theorem renders_optional_text {α : Type} (word : α → String) (o : Option α) :
    Renders (writeOptional (fun a => writeText (word a)) o)
      (optionalTokens (fun a => textTokens (word a)) o) fieldMarks :=
  renders_optional (fun a => renders_text (word a) fieldMarks) (by decide)

/-- A setting that is a list if it is given. -/
theorem renders_optional_list (o : Option (List String)) :
    Renders (writeOptional writeList o) (optionalTokens listTokens o) fieldMarks :=
  renders_optional (fun items => (renders_list items).mono (by decide)) (by decide)

/-- Every field is the line of its cell, in which no field ends. -/
theorem renders_fields (s : Spec) : ∀ p ∈ s.fields.zip s.cells, Renders p.1 p.2 fieldMarks := by
  have hparams : Renders (writeOptional (writeDict writeList) s.params)
      (optionalTokens (dictTokens listTokens) s.params) fieldMarks :=
    renders_optional (fun d => (renders_dict (fun items => (renders_list items).mono (by decide))
      d).mono (by decide)) (by decide)
  have hbindings : Renders (writeDict writeText s.bindings) (dictTokens textTokens s.bindings)
      fieldMarks :=
    (renders_dict (fun t => renders_text t dictMarks) s.bindings).mono (by decide)
  simp only [fields, cells, List.zip_cons_cons, List.zip_nil_right, List.forall_mem_cons]
  refine ⟨renders_text _ _, renders_text _ _, (renders_list _).mono (by decide),
    renders_optional_text _ _, renders_optional_text _ _, renders_optional_text _ _,
    renders_optional_text _ _, renders_optional_text _ _, renders_optional_text _ _,
    renders_optional_text _ _, renders_optional_text _ _, renders_optional_text _ _,
    renders_optional_list _, renders_optional_list _, renders_optional_list _, hparams,
    renders_optional_text _ _, hbindings, renders_optional_text _ _, renders_optional_text _ _,
    renders_optional_text _ _, renders_optional_text _ _, by simp⟩

/-- The whole line is the line of the cells with the sentinel of fields between them. -/
theorem renders_encode (s : Spec) :
    Renders s.encode.toList ([mark .field].intercalate s.cells) (.field :: fieldMarks) := by
  have hfields : ∀ p ∈ s.fields.zip s.cells, Renders p.1 p.2 (.field :: fieldMarks) := fun p hp =>
    (renders_fields s p hp).mono fun _ => List.mem_cons_of_mem _
  have h := renders_joined (s := .field) hfields (by decide)
  rw [encode, String.toList_ofList]
  exact h

/-- The line of a specification is one line. -/
theorem not_break_mem_encode (s : Spec) {c : Char} (hc : c = '\n' ∨ c = '\r') :
    c ∉ s.encode.toList := by
  rw [(renders_encode s).line_eq]
  exact not_break_mem_line hc

/-- The line is cut into the cells. -/
theorem split_scan_encode (s : Spec) :
    scan s.encode.toList = .ok ([mark .field].intercalate s.cells) ∧
      split .field ([mark .field].intercalate s.cells) = s.cells := by
  refine ⟨by rw [(renders_encode s).line_eq]; exact scan_line (renders_encode s).normal, ?_⟩
  refine split_intercalate (by simp [cells]) fun part hpart => ?_
  have hzip : s.cells = (s.fields.zip s.cells).map Prod.snd := rfl
  rw [hzip] at hpart
  obtain ⟨p, hp, rfl⟩ := List.mem_map.1 hpart
  exact (renders_fields s p hp).not_mem (by decide)

/-! ### The cells and the specification -/

/-- A field whose cell is accepted. -/
theorem readField_ok {α : Type} {cells : List (List Token)} {place : Nat}
    {read : List Token → Except FieldError α} {a : α} (h : read (cells.getD place []) = .ok a) :
    readField cells place read = .ok a := by
  rw [readField, h]

/-- A text is no mark of an absent setting. -/
theorem absent_not_mem_textTokens (s : String) : mark .absent ∉ textTokens s :=
  (renders_text s []).not_mem (by decide)

/-- A setting with a text of its own reads back. -/
theorem readOptional_text {α : Type} {word : α → String} {read : List Token → Except FieldError α}
    (hread : ∀ a, read (textTokens (word a)) = .ok a) (o : Option α) :
    readOptional read (optionalTokens (fun a => textTokens (word a)) o) = .ok o :=
  readOptional_optionalTokens (fun a => absent_not_mem_textTokens (word a)) hread

/-- A setting that is a list reads back. -/
theorem readOptional_list (o : Option (List String)) :
    readOptional readList (optionalTokens listTokens o) = .ok o :=
  readOptional_optionalTokens (fun items => (renders_list items).not_mem (by decide))
    readList_listTokens

/-- The parameters with their values read back. -/
theorem readOptional_params (o : Option (Dict (List String))) :
    readOptional (readDict readList) (optionalTokens (dictTokens listTokens) o) = .ok o := by
  refine readOptional_optionalTokens (fun d => ?_)
    (readDict_dictTokens (fun items => (renders_list items).not_mem (by decide))
      readList_listTokens)
  exact (renders_dict (fun items => (renders_list items).mono (by decide)) d).not_mem (by decide)

/-- A duration that may not be given reads back if it fits, and is refused if it does not. -/
theorem readOptional_time (o : Option Duration) :
    readOptional readDuration (optionalTokens (fun d => textTokens d.exact) o) =
      match overlong o with
      | none => .ok o
      | some d => .error (.badTime d.exact) := by
  cases o with
  | none => rfl
  | some d =>
    have hread : readOptional readDuration (optionalTokens (fun d => textTokens d.exact) (some d)) =
        (readDuration (textTokens d.exact)).map some :=
      readOptional_some (absent_not_mem_textTokens d.exact)
    rw [hread, readDuration_textTokens]
    by_cases h : d.nanos ≤ Duration.maxNanos
    · have hfits : overlong (some d) = none := by simp [overlong, Option.filter, h]
      rw [hfits, if_pos h]
      rfl
    · have hlong : overlong (some d) = some d := by
        simp [overlong, Option.filter, Nat.not_le.1 h]
      rw [hlong, if_neg h]
      rfl

/-- Reading the cell of a duration that may not be given. -/
theorem readField_time {s : Spec} (place : Nat) (time : Option Duration)
    (h : s.cells.getD place [] = optionalTokens (fun d => textTokens d.exact) time) :
    readField s.cells place (readOptional readDuration) =
      match overlong time with
      | none => .ok time
      | some d => .error (.invalidField (fieldNames.getD place "") (.badTime d.exact)) := by
  rw [readField, h, readOptional_time]
  cases overlong time with
  | none => rfl
  | some d => rfl

/-- Reading the cells of a specification. -/
theorem ofCells_cells (s : Spec) :
    ofCells s.cells =
      match s.overlong? with
      | none => .ok s
      | some (field, d) => .error (.invalidField field (.badTime d.exact)) := by
  -- all fields but the durations read back whatever they hold
  have h₀ : readField s.cells 0 readText = .ok s.name := readField_ok (readText_textTokens _)
  have h₁ : readField s.cells 1 (readAs Mode.parse UnknownMode.message) = .ok s.mode :=
    readField_ok (readMode_textTokens _)
  have h₂ : readField s.cells 2 readSizes = .ok s.groupSizes :=
    readField_ok (readSizes_listTokens _)
  have h₃ : readField s.cells 3 (readOptional read32) = .ok s.threads :=
    readField_ok (readOptional_text read32_textTokens _)
  have h₄ : readField s.cells 4 (readOptional read32) = .ok s.warmup.iterations :=
    readField_ok (readOptional_text read32_textTokens _)
  have h₆ : readField s.cells 6 (readOptional read64) = .ok s.warmup.batch :=
    readField_ok (readOptional_text read64_textTokens _)
  have h₇ : readField s.cells 7 (readOptional read32) = .ok s.measurement.iterations :=
    readField_ok (readOptional_text read32_textTokens _)
  have h₉ : readField s.cells 9 (readOptional read64) = .ok s.measurement.batch :=
    readField_ok (readOptional_text read64_textTokens _)
  have h₁₀ : readField s.cells 10 (readOptional read32) = .ok s.forks :=
    readField_ok (readOptional_text read32_textTokens _)
  have h₁₁ : readField s.cells 11 (readOptional read32) = .ok s.warmupForks :=
    readField_ok (readOptional_text read32_textTokens _)
  have h₁₂ : readField s.cells 12 (readOptional readList) = .ok s.launch.args :=
    readField_ok (readOptional_list _)
  have h₁₃ : readField s.cells 13 (readOptional readList) = .ok s.launch.before :=
    readField_ok (readOptional_list _)
  have h₁₄ : readField s.cells 14 (readOptional readList) = .ok s.launch.after :=
    readField_ok (readOptional_list _)
  have h₁₅ : readField s.cells 15 (readOptional (readDict readList)) = .ok s.params :=
    readField_ok (readOptional_params _)
  have h₁₆ : readField s.cells 16 (readOptional (readAs TimeUnit.parse UnknownUnit.message)) =
      .ok s.unit :=
    readField_ok (readOptional_text readUnit_textTokens _)
  have h₁₇ : readField s.cells 17 (readDict readText) = .ok s.bindings :=
    readField_ok (readDict_dictTokens (fun t => (renders_text t []).not_mem (by decide))
      readText_textTokens _)
  have h₁₈ : readField s.cells 18 (readOptional readBool) = .ok s.syncIterations :=
    readField_ok (readOptional_text readBool_textTokens _)
  have h₁₉ : readField s.cells 19 (readOptional readBool) = .ok s.failOnError :=
    readField_ok (readOptional_text readBool_textTokens _)
  have h₂₁ : readField s.cells 21 (readOptional readBool) = .ok s.scale :=
    readField_ok (readOptional_text readBool_textTokens _)
  have h₅ := readField_time (s := s) 5 s.warmup.time rfl
  have h₈ := readField_time (s := s) 8 s.measurement.time rfl
  have h₂₀ := readField_time (s := s) 20 s.timeout rfl
  -- the first duration that is refused decides; without one all fields are read
  simp only [ofCells, overlong?, times, List.findSome?_cons, List.findSome?_nil, h₀, h₁, h₂, h₃,
    h₄, h₆, h₇, h₉, h₁₀, h₁₁, h₁₂, h₁₃, h₁₄, h₁₅, h₁₆, h₁₇, h₁₈, h₁₉, h₂₁, h₅, h₈, h₂₀]
  cases hw : overlong s.warmup.time with
  | some d => rfl
  | none =>
    cases hm : overlong s.measurement.time with
    | some d => rfl
    | none =>
      cases ht : overlong s.timeout with
      | some d => rfl
      | none => rfl

/-- **What the reader makes of the line of a specification**: the specification, unless a duration
does not fit; then the first field with such a duration is refused. -/
theorem decode_encode (s : Spec) :
    decode s.encode =
      match s.overlong? with
      | none => .ok s
      | some (field, d) => .error (.invalidField field (.badTime d.exact)) := by
  obtain ⟨hscan, hsplit⟩ := split_scan_encode s
  have hlength : s.cells.length = fieldNames.length := rfl
  rw [decode, hscan]
  simp only [hsplit, hlength, ↓reduceIte]
  exact ofCells_cells s

/-- **The line form loses nothing but durations beyond 64 bits**: the line of a specification holds
no line break, and it reads back with all its settings, unless one of its durations does not
fit 64 bits of nanoseconds; then the reader names the first field with such a duration. -/
theorem encode_faithful (s : Spec) :
    ('\n' ∉ s.encode.toList ∧ '\r' ∉ s.encode.toList) ∧
      decode s.encode =
        match s.overlong? with
        | none => .ok s
        | some (field, d) => .error (.invalidField field (.badTime d.exact)) :=
  ⟨⟨not_break_mem_encode s (.inl rfl), not_break_mem_encode s (.inr rfl)⟩, decode_encode s⟩

end Microbench.Spec
