import Microbench.Wire.Frame

/-!
# How large a report is

A report is written with every sample of every metric in it.  The text of a sample has
three characters at least, and something stands between any two of them, so the line of
a report has four bytes for every sample, and more.  Nothing else bounds how many samples
a report may have.

## Main definitions

* `IterationResult.sampleCount` — the samples of all metrics of an iteration.

## Main results

* `Shortest.three_le_length_layout` — the text of a number.
* `Json.le_length_array`, `Json.length_flatMap_le_object` — what holds values is longer than they
  are.
* `Message.size_iteration` — **a report takes four bytes for every sample.**
-/

namespace Microbench

/-! ### Numbers -/

/-- The text of digits and a power of ten has three characters at least: where there is only one
digit, a point and another one follow, or a power of ten. -/
theorem Shortest.three_le_length_layout {ds : List Char} (h : ds ≠ []) (k : Int) :
    3 ≤ (layout ds k).length := by
  have hpos : 0 < ds.length := List.length_pos_iff.2 h
  unfold layout
  dsimp only
  by_cases hwhole : 0 ≤ k ∧ (ds.length : Int) + k ≤ 16
  · -- a whole number with a point and a zero after it
    rw [if_pos hwhole]
    simp only [List.length_append, List.length_replicate, List.length_cons, List.length_nil]
    omega
  by_cases hinside : 0 < (ds.length : Int) + k ∧ (ds.length : Int) + k ≤ 16
  · -- the point stands among the digits, of which there are two at least
    rw [if_neg hwhole, if_pos hinside]
    simp only [List.length_append, List.length_take, List.length_cons, List.length_drop]
    omega
  by_cases hbefore : -5 < (ds.length : Int) + k ∧ (ds.length : Int) + k ≤ 0
  · -- a zero and the point stand before the digits
    rw [if_neg hwhole, if_neg hinside, if_pos hbefore]
    simp only [List.length_append, List.length_replicate, List.length_cons, List.length_nil]
    omega
  · -- a power of ten follows, which has a sign
    rw [if_neg hwhole, if_neg hinside, if_neg hbefore]
    split
    · split <;> simp
    · split <;> simp <;> omega

/-- The text of a finite number has three characters at least. -/
theorem Shortest.three_le_length_text {x : Float} {s : String} (h : text x = some s) :
    3 ≤ s.toList.length := by
  unfold text at h
  split at h
  · next negative mantissa exponent _ =>
    dsimp only at h
    split at h
    · obtain rfl := Option.some.inj h
      simp
    · obtain rfl := Option.some.inj h
      have hdigits : Nat.toDigits 10 (digits mantissa exponent).1 ≠ [] := Nat.toDigits_ne_nil
      have hlayout := three_le_length_layout hdigits (digits mantissa exponent).2
      rw [String.toList_ofList, List.length_append]
      omega
  · cases h

namespace Json

/-- A measurement takes three characters at least, also if it is written as no value. -/
theorem three_le_length_ofFloat (x : Float) : 3 ≤ (chars (ofFloat x)).length := by
  unfold ofFloat
  split
  · decide
  · next s hs =>
    have hlength := Shortest.three_le_length_text hs
    split
    · next cs hcs =>
      rw [hcs] at hlength
      simpa [chars, Numeral.chars] using hlength
    · simpa [chars, Numeral.chars] using hlength

/-! ### Values made of values -/

theorem le_length_itemsChars {vs : List Json} {n : Nat} (h : ∀ v ∈ vs, n ≤ (chars v).length) :
    (n + 1) * vs.length + 1 ≤ (itemsChars vs).length := by
  induction vs with
  | nil => simp [itemsChars]
  | cons v vs ih =>
    obtain ⟨hv, hvs⟩ := List.forall_mem_cons.1 h
    have hrest := ih hvs
    rw [itemsChars, List.length_cons, List.length_cons, List.length_append, Nat.mul_succ]
    omega

/-- Items of this length make an array that is longer by something between them. -/
theorem le_length_array {vs : List Json} {n : Nat} (h : ∀ v ∈ vs, n ≤ (chars v).length) :
    (n + 1) * vs.length ≤ (chars (.array vs)).length := by
  cases vs with
  | nil => simp
  | cons v vs =>
    obtain ⟨hv, hvs⟩ := List.forall_mem_cons.1 h
    have hrest := le_length_itemsChars hvs
    rw [chars, List.length_cons, List.length_cons, List.length_append, Nat.mul_succ]
    omega

theorem length_flatMap_le_membersChars (ms : List (String × Json)) :
    (ms.flatMap fun m => chars m.2).length ≤ (membersChars ms).length := by
  induction ms with
  | nil => simp
  | cons m ms ih =>
    obtain ⟨k, v⟩ := m
    rw [List.flatMap_cons, List.length_append, membersChars, List.length_cons, List.length_append,
      List.length_cons, List.length_append]
    dsimp only
    omega

/-- An object is longer than its values together. -/
theorem length_flatMap_le_object (ms : List (String × Json)) :
    (ms.flatMap fun m => chars m.2).length ≤ (chars (.object ms)).length := by
  cases ms with
  | nil => simp
  | cons m ms =>
    obtain ⟨k, v⟩ := m
    have hrest := length_flatMap_le_membersChars ms
    rw [List.flatMap_cons, List.length_append, chars, List.length_cons, List.length_append,
      List.length_cons, List.length_append]
    dsimp only
    omega

/-- An object is longer than any of its values. -/
theorem length_le_length_object {ms : List (String × Json)} {m : String × Json} (h : m ∈ ms) :
    (chars m.2).length ≤ (chars (.object ms)).length := by
  have hmem : chars m.2 ∈ ms.map fun m => chars m.2 := List.mem_map_of_mem h
  have hsublist := (List.sublist_flatten_of_mem hmem).length_le
  rw [← List.flatMap_def] at hsublist
  exact Nat.le_trans hsublist (length_flatMap_le_object ms)

end Json

/-! ### Reports -/

/-- The samples of all metrics of an iteration. -/
def IterationResult.sampleCount {α : Type} (r : IterationResult α) : Nat :=
  (r.metrics.flatMap (·.samples)).length

/-- A metric takes four characters for every sample. -/
theorem Metric.length_toJson (m : Metric) :
    4 * m.samples.length ≤ (Json.chars m.toJson).length := by
  have hsamples : 4 * (m.samples.map Json.ofFloat).length ≤
      (Json.chars (.array (m.samples.map Json.ofFloat))).length := by
    refine Json.le_length_array fun v hv => ?_
    obtain ⟨x, -, rfl⟩ := List.mem_map.1 hv
    exact Json.three_le_length_ofFloat x
  rw [List.length_map] at hsamples
  refine Nat.le_trans hsamples ?_
  exact Json.length_le_length_object (m := ("statistics", .array (m.samples.map Json.ofFloat)))
    (by simp)

/-- The result of an iteration takes four characters for every sample. -/
theorem IterationResult.length_toJson (r : IterationResult) :
    4 * r.sampleCount ≤ (Json.chars r.toJson).length := by
  obtain ⟨primary, secondary, threads, operations⟩ := r
  have hsecondary : 4 * (secondary.values.flatMap (·.samples)).length ≤
      (Json.chars (.object (secondary.toList.map fun e => (e.1, e.2.toJson)))).length := by
    refine Nat.le_trans ?_ (Json.length_flatMap_le_object _)
    rw [Dict.values, List.flatMap_map, List.flatMap_map]
    induction secondary.toList with
    | nil => simp
    | cons e entries ih =>
      have hfirst := e.2.length_toJson
      simp only [List.flatMap_cons, List.length_append] at ih ⊢
      omega
  refine Nat.le_trans ?_ (Json.length_flatMap_le_object _)
  rw [sampleCount, metrics, List.flatMap_append, List.length_append]
  simp only [List.flatMap_cons, List.flatMap_nil, List.length_append, List.length_nil]
  cases primary with
  | none =>
    simp only [Option.toList_none, List.flatMap_nil, List.length_nil]
    omega
  | some m =>
    have hprimary := m.length_toJson
    simp only [Option.toList_some, List.flatMap_cons, List.flatMap_nil, List.length_append,
      List.length_nil]
    omega

/-- A text has a byte at least for every character. -/
theorem length_le_size (cs : List Char) : cs.length ≤ (String.ofList cs).utf8ByteSize := by
  induction cs with
  | nil => exact Nat.le_refl _
  | cons c cs ih =>
    have hc := c.utf8Size_pos
    rw [String.ofList_cons, String.utf8ByteSize_append, String.utf8ByteSize_singleton,
      List.length_cons]
    omega

/-- **A report takes four bytes for every sample**, whatever else is in it. -/
theorem Message.size_iteration (r : Report) :
    4 * r.result.sampleCount ≤ (Message.iteration r).line.utf8ByteSize := by
  have hreport : (Json.chars r.result.toJson).length ≤ (Json.chars r.toJson).length :=
    Json.length_le_length_object (m := ("result", r.result.toJson)) (by simp)
  have hmessage : (Json.chars r.toJson).length ≤
      (Json.chars (Message.iteration r).toJson).length :=
    Json.length_le_length_object (m := ("Iteration", r.toJson)) (by simp)
  have htext := length_le_size (Json.chars (Message.iteration r).toJson)
  have hresult := r.result.length_toJson
  rw [Message.line, String.utf8ByteSize_append, Message.text, Json.text]
  omega

end Microbench
