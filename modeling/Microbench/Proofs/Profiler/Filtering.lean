import Microbench.Profiler.Hotspots
import Microbench.Proofs.Text.Lines

/-!
# Samples that count

A recording of the whole machine is read line by line, and few of its lines count for a
process.  What a line counts for depends on nothing but the line itself and the first sample
of the recording, from which the time is taken: lines that do not count may as well not be
there, and how many lines count for an event does not depend on the order of those after the
first sample.

## Main definitions

* `Hotspots.Matches` — an event that is seen, and one that is asked for.
* `Hotspots.IsFirstMatch` — the event that a sample counts for.
* `Hotspots.CountsFor` — whether a line counts for an event.
* `Hotspots.IsNoise` — a line that may as well not be there.

## Main results

* `Hotspots.collect_eq` — every line is chosen or not by itself, once the first sample is known.
* `Hotspots.total_collect` — the total of an event is the number of lines that count for it.
* `Hotspots.collect_without_noise`, `Hotspots.total_rearranged` — deleted and moved lines.
* `Hotspots.collect_exact` — **filtering is exact, and ignores noise.**
-/

namespace Microbench.Hotspots

variable {pid : Nat} {skip : Duration} {events lines before after after' : List String}
  {seen asked event line : String} {first s : Sample}

/-! ### Events that are asked for -/

/-- An event that is seen is one that is asked for, perhaps with a modifier. -/
def Matches (seen asked : String) : Prop :=
  seen = asked ∨ ∃ modifier : String, seen = asked ++ ":" ++ modifier

theorem isEvent_iff : isEvent seen asked = true ↔ Matches seen asked := by
  rw [isEvent, Bool.or_eq_true, decide_eq_true_iff, List.isPrefixOf_iff_prefix]
  refine or_congr_right ⟨fun ⟨modifier, hseen⟩ => ⟨String.ofList modifier, ?_⟩, ?_⟩
  · rw [← String.toList_inj, String.toList_append, String.toList_ofList, hseen]
  · rintro ⟨modifier, rfl⟩
    exact ⟨modifier.toList, String.toList_append.symm⟩

instance : Decidable (Matches seen asked) := decidable_of_iff _ isEvent_iff

/-- An event asked for is the first that matches the event seen. -/
def IsFirstMatch (events : List String) (seen event : String) : Prop :=
  ∃ before after, events = before ++ event :: after ∧ Matches seen event ∧
    ∀ asked ∈ before, ¬ Matches seen asked

theorem eventOf_eq_some_iff :
    eventOf events seen = some event ↔ IsFirstMatch events seen event := by
  simp only [eventOf, List.find?_eq_some_iff_append, IsFirstMatch, Bool.not_eq_true',
    ← Bool.not_eq_true, isEvent_iff]
  constructor
  · rintro ⟨hmatch, before, after, hevents, hbefore⟩
    exact ⟨before, after, hevents, hmatch, hbefore⟩
  · rintro ⟨before, after, hevents, hmatch, hbefore⟩
    exact ⟨hmatch, before, after, hevents, hbefore⟩

theorem eventOf_eq_none_iff :
    eventOf events seen = none ↔ ∀ asked ∈ events, ¬ Matches seen asked := by
  simp only [eventOf, List.find?_eq_none, isEvent_iff]

instance : Decidable (IsFirstMatch events seen event) := decidable_of_iff _ eventOf_eq_some_iff

/-- An event with a modifier that is asked for too counts for the one before it. -/
example : IsFirstMatch ["faults", "cycles", "cycles:u"] "cycles:u" "cycles" := by decide +kernel

/-! ### Lines one by one -/

/-- The sample that a recording starts with. -/
def firstSample? (lines : List String) : Option Sample := lines.findSome? Sample.parse

/-- A line as it counts, in a recording that starts with this sample. -/
def countedAs (pid : Nat) (skip : Duration) (events : List String) (first? : Option Sample)
    (line : String) : Option Sample := do
  let first ← first?
  let s ← Sample.parse line
  counted pid skip events first.time s

/-- A line counts for an event: it is a sample of the process, not too early after the first, and
this event is the first that it matches. -/
def CountsFor (lines : List String) (pid : Nat) (skip : Duration) (events : List String)
    (event line : String) : Prop :=
  ∃ first ∈ firstSample? lines, ∃ s ∈ Sample.parse line,
    s.pid = pid ∧ ¬ s.time - first.time < skip.inSeconds ∧ IsFirstMatch events s.event event

instance : DecidablePred (CountsFor lines pid skip events event) :=
  fun _ => Option.decidableExistsMem _

/-- Every line is chosen or not by itself, once the first sample is known. -/
theorem collect_eq (lines : List String) (pid : Nat) (skip : Duration) (events : List String) :
    collect lines pid skip events =
      { events, samples := lines.filterMap (countedAs pid skip events (firstSample? lines)) } := by
  have hnone : lines.filterMap (countedAs pid skip events none) = [] :=
    List.filterMap_eq_nil_iff.2 fun _ _ => rfl
  have hsome (first : Sample) : lines.filterMap (countedAs pid skip events (some first)) =
      (lines.filterMap Sample.parse).filterMap (counted pid skip events first.time) :=
    List.filterMap_filterMap.symm
  rw [collect, firstSample?, ← List.head?_filterMap]
  cases h : lines.filterMap Sample.parse with
  | nil => rw [List.head?_nil, hnone]
  | cons first rest => rw [List.head?_cons, hsome, h]

theorem counted_event_eq_some_iff :
    (counted pid skip events first.time s).map (·.event) = some event ↔
      s.pid = pid ∧ ¬ s.time - first.time < skip.inSeconds ∧
        IsFirstMatch events s.event event := by
  rw [counted, ← eventOf_eq_some_iff]
  split
  · next h =>
    refine iff_of_false nofun fun ⟨hpid, htime, _⟩ => ?_
    exact h.elim (absurd hpid) htime
  · next h =>
    rw [not_or, not_not] at h
    rw [Option.map_map, and_iff_right h.1, and_iff_right h.2]
    exact iff_of_eq (congrArg (· = some event) Option.map_id')

theorem countedAs_event_eq_some_iff :
    (countedAs pid skip events (firstSample? lines) line).map (·.event) = some event ↔
      CountsFor lines pid skip events event line := by
  rw [CountsFor, countedAs]
  cases firstSample? lines with
  | none => simp
  | some first =>
    cases Sample.parse line with
    | none => simp
    | some s => simpa using counted_event_eq_some_iff

/-- What does not count for an event that is asked for does not count. -/
theorem CountsFor.mem (h : CountsFor lines pid skip events event line) : event ∈ events := by
  obtain ⟨_, _, _, _, _, _, before, after, rfl, _, _⟩ := h
  exact List.mem_append_right _ List.mem_cons_self

/-- The samples of an event are the lines that count for it. -/
theorem ofEvent_collect (event : String) :
    (collect lines pid skip events).ofEvent event =
      (lines.filterMap (countedAs pid skip events (firstSample? lines))).filter
        (·.event = event) := by
  rw [collect_eq, ofEvent]
  split
  · rfl
  · next h =>
    refine (List.filter_eq_nil_iff.2 fun s hs hevent => h ?_).symm
    obtain ⟨line, _, hline⟩ := List.mem_filterMap.1 hs
    have hcounts : CountsFor lines pid skip events event line :=
      countedAs_event_eq_some_iff.1 (by rw [hline, Option.map_some, of_decide_eq_true hevent])
    exact List.contains_iff_mem.2 hcounts.mem

/-- The total of an event is the number of lines that count for it. -/
theorem total_collect (event : String) :
    (collect lines pid skip events).total event =
      lines.countP (CountsFor lines pid skip events event) := by
  rw [total, ofEvent_collect, ← List.countP_eq_length_filter, List.countP_filterMap]
  refine List.countP_congr fun line _ => ?_
  rw [decide_eq_true_iff, ← countedAs_event_eq_some_iff]
  cases countedAs pid skip events (firstSample? lines) line <;> simp

/-! ### Lines that may as well not be there -/

/-- A line after these others may as well not be there: it is no sample, or a sample after the
first that is of another process, matches no event or is too early. -/
def IsNoise (before : List String) (pid : Nat) (skip : Duration) (events : List String)
    (line : String) : Prop :=
  Sample.parse line = none ∨
    ∃ first ∈ firstSample? before, ∃ s ∈ Sample.parse line,
      s.pid ≠ pid ∨ (∀ asked ∈ events, ¬ Matches s.event asked) ∨
        s.time - first.time < skip.inSeconds

theorem firstSample?_of_parse (hline : Sample.parse line = some s) (before after : List String) :
    firstSample? (before ++ line :: after) = (firstSample? before).or (some s) := by
  rw [firstSample?, List.findSome?_append, List.findSome?_cons, hline, firstSample?]

theorem firstSample?_of_starts (hfirst : firstSample? before = some first) (after : List String) :
    firstSample? (before ++ after) = some first := by
  rw [firstSample?] at *
  rw [List.findSome?_append, hfirst, Option.some_or]

theorem IsNoise.firstSample?_eq (h : IsNoise before pid skip events line) :
    firstSample? (before ++ line :: after) = firstSample? (before ++ after) := by
  obtain hline | ⟨first, hfirst, -⟩ := h
  · rw [firstSample?, firstSample?, List.findSome?_append, List.findSome?_append,
      List.findSome?_cons, hline]
  · rw [firstSample?_of_starts hfirst, firstSample?_of_starts hfirst]

theorem IsNoise.countedAs_eq_none (h : IsNoise before pid skip events line) :
    countedAs pid skip events (firstSample? (before ++ after)) line = none := by
  obtain hline | ⟨first, hfirst, s, hs, hnoise⟩ := h
  · rw [countedAs, hline]
    cases firstSample? (before ++ after) <;> rfl
  · rw [firstSample?_of_starts hfirst, countedAs, hs]
    change counted pid skip events first.time s = none
    rw [counted]
    obtain hpid | hevent | htime := hnoise
    · rw [if_pos (.inl hpid)]
    · rw [eventOf_eq_none_iff.2 hevent, Option.map_none, ite_self]
    · rw [if_pos (.inr htime)]

/-- Noise may as well not be there. -/
theorem collect_without_noise (h : IsNoise before pid skip events line) (after : List String) :
    collect (before ++ line :: after) pid skip events =
      collect (before ++ after) pid skip events := by
  rw [collect_eq, collect_eq, h.firstSample?_eq, List.filterMap_append, List.filterMap_append,
    List.filterMap_cons_none h.countedAs_eq_none]

/-- After the first sample the order of the lines is no matter to the totals. -/
theorem total_rearranged (hline : (Sample.parse line).isSome) (h : after.Perm after')
    (event : String) :
    (collect (before ++ line :: after') pid skip events).total event =
      (collect (before ++ line :: after) pid skip events).total event := by
  obtain ⟨s, hs⟩ := Option.isSome_iff_exists.1 hline
  have hperm : (before ++ line :: after').Perm (before ++ line :: after) :=
    (h.symm.cons line).append_left before
  rw [total_collect, total_collect, hperm.countP_eq]
  simp only [CountsFor, firstSample?_of_parse hs]

/-! ### Captured texts -/

/-- The same is found, whatever is asked. -/
structure SameFindings (h h' : Hotspots) : Prop where
  total : ∀ event, h.total event = h'.total event
  top : ∀ event n, h.top event n = h'.top event n
  metrics : ∀ n, h.metrics n = h'.metrics n

theorem SameFindings.refl (h : Hotspots) : SameFindings h h :=
  ⟨fun _ => rfl, fun _ _ => rfl, fun _ => rfl⟩

/-- Whatever is chosen of the lines of a captured text is what a captured text consists of. -/
theorem exists_lines_eq {script : ByteArray} (h : lines ⊆ Text.lines script) :
    ∃ script', Text.lines script' = lines :=
  ⟨Text.unlines lines, Text.lines_unlines fun _ hs => Text.oneLine_of_mem_lines (h hs)⟩

/-- Filtering is exact, and ignores noise.  The total of an event is the number of lines that count
for it.  Nothing else is found in a captured text from which a line is missing that is noise, and
no other totals in one that has the lines after the first sample in another order. -/
theorem collect_exact (script : ByteArray) (pid : Nat) (skip : Duration) (events : List String) :
    (∀ event, (collect (Text.lines script) pid skip events).total event =
      (Text.lines script).countP (CountsFor (Text.lines script) pid skip events event)) ∧
    (∀ before line after, Text.lines script = before ++ line :: after →
      IsNoise before pid skip events line →
      (∃ script', Text.lines script' = before ++ after) ∧
      ∀ script', Text.lines script' = before ++ after →
        SameFindings (collect (Text.lines script') pid skip events)
          (collect (Text.lines script) pid skip events)) ∧
    ∀ before line after after', Text.lines script = before ++ line :: after →
      (Sample.parse line).isSome → after.Perm after' →
      (∃ script', Text.lines script' = before ++ line :: after') ∧
      ∀ script', Text.lines script' = before ++ line :: after' →
        ∀ event, (collect (Text.lines script') pid skip events).total event =
          (collect (Text.lines script) pid skip events).total event := by
  refine ⟨total_collect, fun before line after hlines hnoise => ⟨?_, fun script' hlines' => ?_⟩,
    fun before line after after' hlines hline hperm => ⟨?_, fun script' hlines' event => ?_⟩⟩
  · have hsub : (before ++ after).Sublist (Text.lines script) :=
      hlines ▸ (List.sublist_cons_self line after).append_left before
    exact exists_lines_eq hsub.subset
  · rw [hlines', hlines, collect_without_noise hnoise]
    exact .refl _
  · have hmoved : (before ++ line :: after').Perm (Text.lines script) :=
      hlines ▸ (hperm.symm.cons line).append_left before
    exact exists_lines_eq hmoved.subset
  · rw [hlines', hlines, total_rearranged hline hperm]

/-- A recording of which half a second is left out.  After the first sample it has a line that is
none, a sample of another process, one that is too early and one that counts. -/
theorem collect_exact_noisy :
    let start := "4242 1.5: cycles: 401000 hot_loop (/opt/bench/worker)"
    let garbage := "garbage line"
    let foreign := "9999 1.75: cycles: 401000 other_process (/usr/bin/other)"
    let early := "4242 1.75: cycles: 401000 hot_loop (/opt/bench/worker)"
    let late := "4242 2.25: cycles: 401000 hot_loop (/opt/bench/worker)"
    let skip : Duration := ⟨500000000⟩
    let script := Text.unlines [start, garbage, foreign, early, late]
    let found (script : ByteArray) := collect (Text.lines script) 4242 skip ["cycles"]
    Text.lines script = [start, garbage, foreign, early, late] ∧ (Sample.parse start).isSome ∧
      IsNoise [start] 4242 skip ["cycles"] garbage ∧
      IsNoise [start, garbage] 4242 skip ["cycles"] foreign ∧
      IsNoise [start, garbage, foreign] 4242 skip ["cycles"] early ∧
      (found script).total "cycles" = 1 ∧
      (∀ script', Text.lines script' = [start, foreign, early, late] →
        SameFindings (found script') (found script)) ∧
      (∀ script', Text.lines script' = [start, garbage, early, late] →
        SameFindings (found script') (found script)) ∧
      (∀ script', Text.lines script' = [start, garbage, foreign, late] →
        SameFindings (found script') (found script)) ∧
      ∀ script', Text.lines script' = [start, late, early, foreign, garbage] →
        ∀ event, (found script').total event = (found script).total event := by
  intro start garbage foreign early late skip script found
  have hlines : Text.lines script = [start, garbage, foreign, early, late] := by decide +kernel
  have hstart : (Sample.parse start).isSome := by decide +kernel
  have hgarbage : (Sample.parse garbage).isNone := by decide +kernel
  have hforeign : (Sample.parse foreign).map (·.pid) = some 9999 := by decide +kernel
  -- a quarter of a second is less than half a second
  have hearly : ((Sample.parse start).bind fun first => (Sample.parse early).map fun s =>
      decide (s.time - first.time < skip.inSeconds)) = some true := by decide +kernel
  have hcount : ([start, garbage, foreign, early, late] : List String).countP
      (CountsFor [start, garbage, foreign, early, late] 4242 skip ["cycles"] "cycles") = 1 := by
    decide +kernel
  obtain ⟨first, hfirst⟩ := Option.isSome_iff_exists.1 hstart
  obtain ⟨s, hs, hpid⟩ := Option.map_eq_some_iff.1 hforeign
  rw [hfirst, Option.bind_some] at hearly
  obtain ⟨s', hs', htime⟩ := Option.map_eq_some_iff.1 hearly
  have hbegins (rest : List String) : firstSample? (start :: rest) = some first := by
    rw [firstSample?, List.findSome?_cons, hfirst]
  have hnoise : IsNoise [start] 4242 skip ["cycles"] garbage :=
    .inl (Option.isNone_iff_eq_none.1 hgarbage)
  have hnoise' : IsNoise [start, garbage] 4242 skip ["cycles"] foreign :=
    .inr ⟨first, hbegins _, s, hs, .inl (by rw [hpid]; decide)⟩
  have hnoise'' : IsNoise [start, garbage, foreign] 4242 skip ["cycles"] early :=
    .inr ⟨first, hbegins _, s', hs', .inr (.inr (of_decide_eq_true htime))⟩
  obtain ⟨htotal, hdeleted, hmoved⟩ := collect_exact script 4242 skip ["cycles"]
  refine ⟨hlines, hstart, hnoise, hnoise', hnoise'', ?_, (hdeleted [start] _ _ hlines hnoise).2,
    (hdeleted [start, garbage] _ _ hlines hnoise').2,
    (hdeleted [start, garbage, foreign] _ _ hlines hnoise'').2,
    (hmoved [] _ _ _ hlines hstart (List.reverse_perm _).symm).2⟩
  rw [htotal, hlines, hcount]

end Microbench.Hotspots
