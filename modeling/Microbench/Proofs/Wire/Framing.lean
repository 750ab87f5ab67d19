import Microbench.Proofs.Number.Digits
import Microbench.Session.Worker

/-!
# Messages fit into lines

A frame is one line, so the text of a message must not hold a line break, whatever
the strings in it hold.  The text of a structured value escapes the control
characters of its strings, and its numbers are made of digits, signs and points.

## Main definitions

* `Unbroken` — characters among which there is no line break.

## Main results

* `hasBreak_line` — the line of a message holds no line break.
* `hasBreak_progressLine` — neither does the line that shows a report.
* `Frame.ofLine_message`, `Frame.ofLine_progress` — how the two lines are understood.
-/

namespace Microbench

/-- There is no line break among these characters. -/
def Unbroken (cs : List Char) : Prop := ∀ c ∈ cs, c ≠ '\n' ∧ c ≠ '\r'

instance (cs : List Char) : Decidable (Unbroken cs) :=
  List.decidableBAll (fun c => c ≠ '\n' ∧ c ≠ '\r') cs

/-- A text holds no line break when its characters do not. -/
theorem hasBreak_eq_false {s : String} : Line.hasBreak s = false ↔ Unbroken s.toList := by
  have h : Line.hasBreak s = s.toList.any fun c => c == '\n' || c == '\r' :=
    String.contains_bool_eq
  rw [h, List.any_eq_false]
  simp [Unbroken]

namespace Unbroken

@[simp] theorem nil : Unbroken [] := by simp [Unbroken]

@[simp] theorem cons_iff {c : Char} {cs : List Char} :
    Unbroken (c :: cs) ↔ (c ≠ '\n' ∧ c ≠ '\r') ∧ Unbroken cs := List.forall_mem_cons

@[simp] theorem append_iff {as bs : List Char} :
    Unbroken (as ++ bs) ↔ Unbroken as ∧ Unbroken bs := List.forall_mem_append

theorem replicate (n : Nat) {c : Char} (h : c ≠ '\n' ∧ c ≠ '\r') :
    Unbroken (List.replicate n c) := fun _ hc => List.eq_of_mem_replicate hc ▸ h

/-- Part of a text without line breaks has none either. -/
theorem mono {as bs : List Char} (h : Unbroken bs) (hsub : as ⊆ bs) : Unbroken as :=
  fun c hc => h c (hsub hc)

/-- The digits of a number. -/
theorem toDigits (n : Nat) : Unbroken (Nat.toDigits 10 n) := fun c hc => by
  have hdigit := Whole.isDigit_of_mem_digits hc
  constructor
  · rintro rfl
    exact absurd hdigit (by decide)
  · rintro rfl
    exact absurd hdigit (by decide)

/-- A number as text. -/
theorem text (n : Nat) : Unbroken (Whole.text n).toList := by
  rw [Whole.text, String.toList_ofList]
  exact toDigits n

end Unbroken

open Unbroken (append_iff cons_iff)

/-! ### Numbers -/

/-- The shortest decimal of a number, wherever its point stands. -/
theorem Shortest.unbroken_layout {ds : List Char} (h : Unbroken ds) (k : Int) :
    Unbroken (Shortest.layout ds k) := by
  have htake (n : Nat) : Unbroken (ds.take n) := h.mono (List.take_subset n ds)
  have hdrop (n : Nat) : Unbroken (ds.drop n) := h.mono (List.drop_subset n ds)
  have hzeros (n : Nat) : Unbroken (List.replicate n '0') := .replicate n (by decide)
  have htail (b : Prop) [Decidable b] (n : Nat) :
      Unbroken ('e' :: ((if b then ['-'] else ['+']) ++ Nat.toDigits 10 n)) := by
    refine cons_iff.2 ⟨by decide, append_iff.2 ⟨?_, .toDigits n⟩⟩
    split <;> decide
  unfold Shortest.layout
  dsimp only
  split
  · -- zeros before the point
    exact append_iff.2 ⟨append_iff.2 ⟨h, hzeros _⟩, by decide⟩
  · split
    · -- the point among the digits
      exact append_iff.2 ⟨htake _, cons_iff.2 ⟨by decide, hdrop _⟩⟩
    · split
      · -- zeros after the point
        exact append_iff.2 ⟨append_iff.2 ⟨by decide, hzeros _⟩, h⟩
      · -- an exponent
        split
        · exact cons_iff.2 ⟨(cons_iff.1 h).1, htail _ _⟩
        · rw [List.append_assoc]
          exact append_iff.2 ⟨htake _, cons_iff.2 ⟨by decide, append_iff.2 ⟨hdrop _, htail _ _⟩⟩⟩

/-- The shortest text of a number. -/
theorem Shortest.unbroken_text {x : Float} {s : String} (h : Shortest.text x = some s) :
    Unbroken s.toList := by
  have hsign (b : Bool) : Unbroken (if b = true then ['-'] else []) := by cases b <;> decide
  unfold Shortest.text at h
  split at h
  · next negative mantissa exponent hx =>
    dsimp only at h
    split at h
    · obtain rfl := Option.some.inj h
      rw [String.toList_ofList]
      exact append_iff.2 ⟨hsign negative, by decide⟩
    · obtain rfl := Option.some.inj h
      rw [String.toList_ofList]
      exact append_iff.2 ⟨hsign negative, Shortest.unbroken_layout (.toDigits _) _⟩
  · cases h

/-- A number with fixed decimal places. -/
theorem unbroken_fixed (count : Nat) (x : Float) : Unbroken (fixed count x).toList := by
  have hplaces (units : Nat) : Unbroken (places count units) := by
    have hpadded : Unbroken (List.replicate (count + 1 - (Nat.toDigits 10 units).length) '0' ++
        Nat.toDigits 10 units) :=
      append_iff.2 ⟨.replicate _ (by decide), .toDigits units⟩
    unfold places
    dsimp only
    split
    · exact hpadded.mono (List.take_subset _ _)
    · refine append_iff.2 ⟨hpadded.mono (List.take_subset _ _), cons_iff.2 ⟨by decide, ?_⟩⟩
      exact hpadded.mono (List.drop_subset _ _)
  unfold fixed
  split
  · decide
  · split <;> decide
  · next negative mantissa exponent hx =>
    rw [String.toList_ofList]
    cases negative
    · exact append_iff.2 ⟨.nil, hplaces _⟩
    · exact append_iff.2 ⟨by decide, hplaces _⟩

/-! ### Structured values -/

namespace Json

/-- A character of a string literal: a line break is escaped. -/
theorem unbroken_escapeChar (c : Char) : Unbroken (escapeChar c) := by
  have hhex : ∀ n < 32, Unbroken (hexByte n) := by decide
  by_cases hn : c = '\n'
  · subst hn
    decide
  · by_cases hr : c = '\r'
    · subst hr
      decide
    · unfold escapeChar
      repeat' split
      any_goals decide
      · next hlt => exact append_iff.2 ⟨by decide, hhex _ hlt⟩
      · exact cons_iff.2 ⟨⟨hn, hr⟩, .nil⟩

/-- A string literal, whatever the string holds. -/
theorem unbroken_quoted (s : String) : Unbroken (quoted s) := by
  refine cons_iff.2 ⟨by decide, append_iff.2 ⟨fun c hc => ?_, by decide⟩⟩
  obtain ⟨a, -, ha⟩ := List.mem_flatMap.1 hc
  exact unbroken_escapeChar a c ha

/-- A value whose text holds no line break. -/
abbrev Flat (v : Json) : Prop := Unbroken v.chars

theorem flat_null : Flat .null := by decide

theorem flat_string (s : String) : Flat (.string s) := by
  rw [Flat, chars]
  exact unbroken_quoted s

theorem flat_ofNat (n : Nat) : Flat (ofNat n) := by
  rw [Flat, ofNat, chars]
  simpa [Numeral.ofNat, Numeral.chars] using Unbroken.toDigits n

theorem flat_ofFloat (x : Float) : Flat (ofFloat x) := by
  unfold ofFloat
  split
  · exact flat_null
  · next s hs =>
    have h := Shortest.unbroken_text hs
    split
    · next cs hcs =>
      rw [hcs] at h
      simpa [Flat, chars, Numeral.chars] using (cons_iff.1 h).2
    · simpa [Flat, chars, Numeral.chars] using h

theorem unbroken_itemsChars {vs : List Json} (h : ∀ v ∈ vs, Flat v) :
    Unbroken (itemsChars vs) := by
  induction vs with
  | nil => decide
  | cons v vs ih =>
    obtain ⟨hv, hvs⟩ := List.forall_mem_cons.1 h
    rw [itemsChars]
    exact cons_iff.2 ⟨by decide, append_iff.2 ⟨hv, ih hvs⟩⟩

/-- An array of flat values. -/
theorem flat_array {vs : List Json} (h : ∀ v ∈ vs, Flat v) : Flat (.array vs) := by
  cases vs with
  | nil => decide
  | cons v vs =>
    obtain ⟨hv, hvs⟩ := List.forall_mem_cons.1 h
    rw [Flat, chars]
    exact cons_iff.2 ⟨by decide, append_iff.2 ⟨hv, unbroken_itemsChars hvs⟩⟩

theorem unbroken_membersChars {ms : List (String × Json)} (h : ∀ m ∈ ms, Flat m.2) :
    Unbroken (membersChars ms) := by
  induction ms with
  | nil => decide
  | cons m ms ih =>
    obtain ⟨hm, hms⟩ := List.forall_mem_cons.1 h
    rw [membersChars]
    exact cons_iff.2 ⟨by decide, append_iff.2 ⟨unbroken_quoted _,
      cons_iff.2 ⟨by decide, append_iff.2 ⟨hm, ih hms⟩⟩⟩⟩

/-- An object with flat members, whatever their names. -/
theorem flat_object {ms : List (String × Json)} (h : ∀ m ∈ ms, Flat m.2) : Flat (.object ms) := by
  cases ms with
  | nil => decide
  | cons m ms =>
    obtain ⟨hm, hms⟩ := List.forall_mem_cons.1 h
    rw [Flat, chars]
    exact cons_iff.2 ⟨by decide, append_iff.2 ⟨unbroken_quoted _,
      cons_iff.2 ⟨by decide, append_iff.2 ⟨hm, unbroken_membersChars hms⟩⟩⟩⟩

/-- A word of a vocabulary. -/
theorem flat_wordOf {α : Type} [DecidableEq α] (words : List (String × α)) (a : α) :
    Flat (wordOf words a) := by
  unfold wordOf
  split
  · exact flat_string _
  · exact flat_null

end Json

open Json

/-! ### Messages -/

theorem Metric.flat_toJson (m : Metric) : Flat m.toJson := by
  have hsamples : Flat (.array (m.samples.map Json.ofFloat)) :=
    flat_array (List.forall_mem_map.2 fun x _ => flat_ofFloat x)
  refine flat_object ?_
  simp [flat_wordOf, flat_string, hsamples]

theorem IterationResult.flat_toJson (r : IterationResult) : Flat r.toJson := by
  have hsecondary : Flat (.object (r.secondary.toList.map fun e => (e.1, e.2.toJson))) :=
    flat_object (List.forall_mem_map.2 fun e _ => Metric.flat_toJson e.2)
  refine flat_object (List.forall_mem_cons.2 ⟨?_, by simp [hsecondary, flat_ofNat]⟩)
  dsimp only
  split
  · exact Metric.flat_toJson _
  · exact flat_null

theorem Report.flat_toJson (r : Report) : Flat r.toJson := by
  have hwarnings : Flat (.array (r.warnings.map .string)) :=
    flat_array (List.forall_mem_map.2 fun w _ => flat_string w)
  refine flat_object ?_
  rw [List.forall_mem_append]
  constructor
  · simp [flat_wordOf, flat_ofNat, IterationResult.flat_toJson]
  · split
    · simp
    · simpa using hwarnings

theorem Failure.flat_toJson (f : Failure) : Flat f.toJson := by
  have hsite : Flat f.site.toJson := by
    unfold Site.toJson
    split
    · exact flat_string _
    · exact flat_object (by simp [flat_wordOf])
    · exact flat_string _
    · exact flat_object (by simp [flat_wordOf])
  refine flat_object ?_
  simp only [List.forall_mem_cons]
  refine ⟨flat_string _, hsite, ?_, flat_string _, by simp⟩
  split
  · exact flat_ofNat _
  · exact flat_null

theorem Message.flat_toJson (m : Message) : Flat m.toJson := by
  cases m with
  | hello version pid task =>
    refine flat_object ?_
    simpa using flat_object (by simp [flat_ofNat, flat_string])
  | iteration r => exact flat_object (by simp [Report.flat_toJson])
  | failure f => exact flat_object (by simp [Failure.flat_toJson])
  | complete n =>
    refine flat_object ?_
    simpa using flat_object (by simp [flat_ofNat])

/-- **The line of a message holds no line break**, whatever the texts in the message hold. -/
theorem Message.hasBreak_line (m : Message) : Line.hasBreak m.line = false := by
  rw [hasBreak_eq_false, Message.line, String.toList_append]
  refine append_iff.2 ⟨by decide, ?_⟩
  rw [Message.text, Json.text, String.toList_ofList]
  exact m.flat_toJson

/-- The unit of a score does not break a line. -/
theorem TimeUnit.hasBreak_scoreUnit (u : TimeUnit) (mode : Mode) :
    Line.hasBreak (u.scoreUnit mode) = false := by
  rw [hasBreak_eq_false]
  cases u <;> cases mode <;> decide

/-- The line that shows a report holds no line break unless the name of the task or the unit of
the score does. -/
theorem hasBreak_progressLine {task : String} {r : Report} (htask : Line.hasBreak task = false)
    (hunit : ∀ m, r.result.primary = some m → Line.hasBreak m.unit = false) :
    Line.hasBreak (progressLine task r) = false := by
  simp only [hasBreak_eq_false] at htask hunit ⊢
  have hphase : Unbroken r.phase.title.toList := by cases r.phase <;> decide
  simp only [progressLine, String.toList_append, append_iff]
  refine ⟨⟨⟨⟨⟨⟨⟨by decide, htask⟩, by decide⟩, hphase⟩, by decide⟩, .text _⟩, by decide⟩, ?_⟩
  split
  · next m hm =>
    rw [String.toList_append, String.toList_append]
    exact append_iff.2 ⟨append_iff.2 ⟨unbroken_fixed _ _, by decide⟩, hunit m hm⟩
  · decide

/-! ### How the lines are understood -/

/-- A line that starts with the marker is understood by what follows. -/
theorem Frame.ofLine_message (m : Message) :
    Frame.ofLine m.line = (Message.parse? m.text.toList).map Frame.message := by
  have h : Frame.payload? m.line.toList = some m.text.toList := by
    rw [Message.line, String.toList_append, Frame.payload?]
    simp
  rw [Frame.ofLine, h]

/-- The line that shows a report is no message. -/
theorem Frame.ofLine_progress (task : String) (r : Report) :
    Frame.ofLine (progressLine task r) = some (.log (progressLine task r)) := by
  have h : Frame.payload? (progressLine task r).toList = none := by
    simp [progressLine, Frame.payload?, Frame.marker]
  rw [Frame.ofLine, h]

end Microbench
