import Microbench.Proofs.Profiler.Ranking
import Microbench.Proofs.Profiler.Spelling
import Microbench.Proofs.Wire.Stream

/-!
# Events asked for in another order

An event that is seen may match several events that are asked for: one by its name, and another
that is the same without a modifier.  It counts for the first of them, so the order in which they
are asked for matters, and an event that is asked for by its full name may be found not to have
happened.  The order is no matter exactly if no event asked for is another one with a modifier.

## Main definitions

* `Hotspots.IsSampleOf` — a line that is to count if its event is asked for.
* `Hotspots.Separate` — no event is another one with a modifier.
* `Hotspots.probe` — a sample of an event, to see what it counts for.

## Main results

* `Hotspots.countsFor_own_iff` — when a sample counts for the event of its own name.
* `Hotspots.collect_orderless` — **when the order of events is no matter.**
-/

namespace Microbench

/-- The bytes of a text hold a line feed only if the text does. -/
theorem Text.oneLine_of_notMem {s : String} (h : '\n' ∉ s.toList) : OneLine s := by
  intro hbyte
  rw [bytesOf, ← String.utf8Encode_toList, List.utf8Encode, List.toList_data_toByteArray] at hbyte
  obtain ⟨c, hc, hmem⟩ := List.mem_flatMap.1 hbyte
  have hnewline : c = '\n' :=
    Char.toNat_inj.1 (toNat_of_mem_utf8EncodeChar hmem (by decide)).symm
  exact h (hnewline ▸ hc)

namespace Sample

theorem eq_concat_of_dropColon {word rest : List Char} (h : dropColon word = some rest) :
    word = rest ++ [':'] := by
  unfold dropColon at h
  split at h
  · next hword =>
    obtain rfl := Option.some.inj h
    rw [← List.reverse_cons, ← hword, List.reverse_reverse]
  · cases h

/-- The event of a sample is one word. -/
theorem word_event {line : String} {s : Sample} (h : parse line = some s) :
    Text.Word s.event.toList := by
  simp only [parse, Option.bind_eq_bind, Option.bind_eq_some_iff, Option.pure_def,
    Option.some.injEq, Prod.exists] at h
  obtain ⟨_, _, _, _, _, _, _, _, _, _, _, _, word, _, hword, event, hevent, _, _, rfl⟩ := h
  have hplain : Text.Word word := (Text.cutBlank_eq_some hword).2
  rw [eq_concat_of_dropColon hevent] at hplain
  rw [String.toList_ofList]
  exact (List.forall_mem_append.1 hplain).1

end Sample

namespace Hotspots

open Text (Word)

variable {pid : Nat} {skip : Duration} {events events' lines : List String}
  {seen asked other event line : String} {first s : Sample} {h h' : Hotspots}

/-! ### Events that match -/

theorem matches_iff_prefix :
    Matches seen asked ↔ seen = asked ∨ asked.toList ++ [':'] <+: seen.toList := by
  rw [← isEvent_iff, isEvent, Bool.or_eq_true, decide_eq_true_iff, List.isPrefixOf_iff_prefix,
    String.toList_append]
  rfl

/-- Of two events asked for that match the same event one is the other, perhaps with a modifier. -/
theorem Matches.comparable (hasked : Matches seen asked) (hother : Matches seen other) :
    Matches other asked ∨ Matches asked other := by
  have hlonger {a b : String} (h : a.toList ++ [':'] <+: b.toList ++ [':']) : Matches b a := by
    obtain heq | hprefix := List.prefix_concat_iff.1 h
    · exact .inl (String.toList_inj.1 (List.append_cancel_right heq)).symm
    · exact matches_iff_prefix.2 (.inr hprefix)
  obtain rfl | hprefix := matches_iff_prefix.1 hasked
  · exact .inr hother
  · obtain rfl | hprefix' := matches_iff_prefix.1 hother
    · exact .inl hasked
    · exact (List.prefix_or_prefix_of_prefix hprefix hprefix').imp hlonger hlonger

/-- What is asked for is a word if what matches it is one. -/
theorem Matches.word (h : Matches seen asked) (hword : Word seen.toList) : Word asked.toList := by
  obtain rfl | ⟨modifier, rfl⟩ := h
  · exact hword
  · rw [String.toList_append, String.toList_append, List.append_assoc] at hword
    exact (List.forall_mem_append.1 hword).1

theorem mem_of_eventOf (h : eventOf events seen = some event) :
    event ∈ events ∧ Matches seen event := by
  obtain ⟨before, after, rfl, hmatch, -⟩ := eventOf_eq_some_iff.1 h
  exact ⟨List.mem_append_right _ List.mem_cons_self, hmatch⟩

/-- The only event that matches is found wherever it stands. -/
theorem eventOf_eq_some_of_only (hmem : event ∈ events) (hmatch : Matches seen event)
    (honly : ∀ asked ∈ events, Matches seen asked → asked = event) :
    eventOf events seen = some event := by
  cases hfound : eventOf events seen with
  | none => exact absurd hmatch (eventOf_eq_none_iff.1 hfound event hmem)
  | some found =>
    obtain ⟨hfoundMem, hfoundMatch⟩ := mem_of_eventOf hfound
    rw [honly found hfoundMem hfoundMatch]

/-- Where only one event matches, their order is no matter. -/
theorem eventOf_congr (hsame : ∀ event, event ∈ events' ↔ event ∈ events)
    (hone : ∀ asked ∈ events, ∀ other ∈ events, Matches seen asked → Matches seen other →
      asked = other) : eventOf events' seen = eventOf events seen := by
  cases hfound : eventOf events seen with
  | none =>
    rw [eventOf_eq_none_iff] at hfound ⊢
    exact fun asked hasked => hfound asked ((hsame asked).1 hasked)
  | some event =>
    obtain ⟨hmem, hmatch⟩ := mem_of_eventOf hfound
    refine eventOf_eq_some_of_only ((hsame event).2 hmem) hmatch fun asked hasked hmatch' => ?_
    exact hone asked ((hsame asked).1 hasked) event hmem hmatch' hmatch

/-! ### Samples of the event of their name -/

/-- A line is a sample of the process with this very event, not too early after the first. -/
def IsSampleOf (lines : List String) (pid : Nat) (skip : Duration) (line event : String) : Prop :=
  ∃ first ∈ firstSample? lines, ∃ s ∈ Sample.parse line,
    s.pid = pid ∧ ¬ s.time - first.time < skip.inSeconds ∧ s.event = event

theorem countsFor_iff (h : IsSampleOf lines pid skip line seen) :
    CountsFor lines pid skip events event line ↔ eventOf events seen = some event := by
  obtain ⟨first, hfirst, s, hs, hpid, htime, rfl⟩ := h
  rw [eventOf_eq_some_iff]
  constructor
  · rintro ⟨first', hfirst', s', hs', -, -, hmatch⟩
    obtain rfl := Option.some.inj (hs.symm.trans hs')
    exact hmatch
  · exact fun hmatch => ⟨first, hfirst, s, hs, hpid, htime, hmatch⟩

/-- A sample counts for the event of its own name, whatever the order, only if this is the one event
that it matches. -/
theorem countsFor_own_iff (h : IsSampleOf lines pid skip line event) (hmem : event ∈ events) :
    (∀ events', events'.Perm events → CountsFor lines pid skip events' event line) ↔
      ∀ asked ∈ events, Matches event asked → asked = event := by
  simp only [countsFor_iff h]
  constructor
  · intro hown asked hasked hmatch
    have hfirst : eventOf (asked :: events.erase asked) event = some asked :=
      eventOf_eq_some_iff.2 ⟨[], _, rfl, hmatch, nofun⟩
    have hperm : (asked :: events.erase asked).Perm events := (List.perm_cons_erase hasked).symm
    exact Option.some.inj (hfirst.symm.trans (hown _ hperm))
  · intro honly events' hperm
    refine eventOf_eq_some_of_only (hperm.mem_iff.2 hmem) (.inl rfl) fun asked hasked => ?_
    exact honly asked (hperm.mem_iff.1 hasked)

/-! ### Events in another order -/

/-- No event that a sample may have is another event with a modifier. -/
def Separate (events : List String) : Prop :=
  ∀ asked ∈ events, ∀ other ∈ events, Word other.toList → Matches other asked → asked = other

/-- The same events are reported in the same order. -/
theorem eventNames_of_perm (hevents : h'.events.Perm h.events) :
    h'.eventNames = h.eventNames := by
  have hnodup (h : Hotspots) : h.eventNames.Nodup := by
    refine h.pairwise_eventNames.imp ?_
    rintro a _ hlt rfl
    exact String.lt_irrefl a hlt
  have hperm : h'.eventNames.Perm h.eventNames := by
    rw [List.perm_ext_iff_of_nodup (hnodup h') (hnodup h)]
    intro event
    rw [mem_eventNames_iff, mem_eventNames_iff, hevents.mem_iff]
  refine List.Perm.eq_of_pairwise (fun a b _ _ hab hba => ?_) h'.pairwise_eventNames
    h.pairwise_eventNames hperm
  exact absurd hba (String.lt_asymm hab)

theorem sameFindings_of_perm (hsamples : h'.samples = h.samples)
    (hevents : h'.events.Perm h.events) : SameFindings h' h := by
  have hofEvent (event : String) : h'.ofEvent event = h.ofEvent event := by
    rw [ofEvent, ofEvent, hsamples, hevents.contains_eq]
  have hresolve (address : Nat) : h'.resolve address = h.resolve address := by
    rw [resolve, resolve, hsamples]
  have htotal (event : String) : h'.total event = h.total event := by
    rw [total, total, hofEvent]
  have htop (event : String) (n : Nat) : h'.top event n = h.top event n := by
    simp only [top, hofEvent, hresolve]
  refine ⟨htotal, htop, fun n => ?_⟩
  have hentries : h'.eventMetrics n = h.eventMetrics n := by
    funext event
    rw [eventMetrics, eventMetrics, htotal, htop]
  rw [metrics, metrics, isEmpty, isEmpty, hsamples, eventNames_of_perm hevents, hentries]

/-- Where no event is another one with a modifier, every line counts as it does in any order. -/
theorem countedAs_of_perm (hseparate : Separate events) (hperm : events'.Perm events)
    (first? : Option Sample) (line : String) :
    countedAs pid skip events' first? line = countedAs pid skip events first? line := by
  unfold countedAs
  cases first? with
  | none => rfl
  | some first =>
    cases hline : Sample.parse line with
    | none => rfl
    | some s =>
      have hword := Sample.word_event hline
      have hone : eventOf events' s.event = eventOf events s.event := by
        refine eventOf_congr (fun _ => hperm.mem_iff) fun asked hasked other hother hm hm' => ?_
        obtain h | h := hm.comparable hm'
        · exact hseparate asked hasked other hother (hm'.word hword) h
        · exact (hseparate other hother asked hasked (hm.word hword) h).symm
      show counted pid skip events' first.time s = counted pid skip events first.time s
      rw [counted, counted, hone]

/-! ### Orders that matter -/

/-- A sample of an event, with as little else as can be. -/
def probe (event : String) : Sample := ⟨0, 0, event, 0, "", ""⟩

/-- It can be written if its event is a word. -/
def probeSpelling (event : String) (hword : Word event.toList) : Sample.Spelling (probe event) where
  thread := none
  time := ['0']
  marked := false
  upper := false
  zeros := 0
  before := []
  afterProcess := .space
  afterTime := .space
  afterEvent := .space
  afterAddress := .space
  beforeImage := []
  after := []
  pid_le := Nat.zero_le _
  thread_word := by decide
  read_time := rfl
  event_word := hword
  address_le := Nat.zero_le _
  symbol_tight := Text.tight_nil
  opening_space h := absurd rfl h
  image_plain := (by decide : ¬ Sample.opening <:+: [])
  beforeImage_blank := Text.blank_nil
  before_blank := Text.blank_nil
  after_blank := Text.blank_nil

theorem line_probe (hword : Word event.toList) :
    (probeSpelling event hword).line =
      String.ofList ("0 0: ".toList ++ event.toList ++ ": 0 ()".toList) := by
  have hprocess : (probeSpelling event hword).process = ['0'] :=
    List.append_nil (Nat.toDigits 10 0)
  have haddress : (probeSpelling event hword).address = ['0'] :=
    List.nil_append (Whole.hexText false 0 0)
  have hspell : (probeSpelling event hword).columns =
      "0 0: ".toList ++ (event.toList ++ [':'] ++ " 0 ()".toList) := by
    rw [Sample.Spelling.columns, hprocess, Sample.Spelling.fromTime, Sample.Spelling.fromEvent,
      Sample.Spelling.fromAddress, haddress]
    rfl
  rw [Sample.Spelling.line, hspell]
  simp [probeSpelling]

theorem oneLine_probe (hword : Word event.toList) :
    Text.OneLine (probeSpelling event hword).line := by
  refine Text.oneLine_of_notMem ?_
  rw [line_probe, String.toList_ofList, List.mem_append, List.mem_append]
  have hevent : '\n' ∉ event.toList := fun h => absurd (hword _ h) (by decide)
  rintro ((h | h) | h)
  · exact absurd h (by decide)
  · exact hevent h
  · exact absurd h (by decide)

theorem isSampleOf_probe (hword : Word event.toList) :
    IsSampleOf [(probeSpelling event hword).line] 0 .zero (probeSpelling event hword).line
      event := by
  have hparse := Sample.parse_line (probeSpelling event hword)
  have hfirst : firstSample? [(probeSpelling event hword).line] = some (probe event) := by
    rw [firstSample?, List.findSome?_cons, hparse]
  have htime : ¬ (probe event).time - (probe event).time < Duration.zero.inSeconds :=
    (by decide +kernel : ¬ (0 : Float) - 0 < Duration.zero.inSeconds)
  exact ⟨probe event, hfirst, probe event, hparse, rfl, htime, rfl⟩

/-- Where no order matters, no event is another one with a modifier: the sample of this one counts
for the other if that is asked for first. -/
theorem separate_of_orderless
    (h : ∀ events', events'.Perm events → ∀ script pid skip,
      SameFindings (collect (Text.lines script) pid skip events')
        (collect (Text.lines script) pid skip events)) : Separate events := by
  intro asked hasked other hother hword hmatch
  have hlines : Text.lines (Text.unlines [(probeSpelling other hword).line]) =
      [(probeSpelling other hword).line] :=
    Text.lines_unlines (List.forall_mem_singleton.2 (oneLine_probe hword))
  have hsample := isSampleOf_probe hword
  have hsame (events') (hperm : events'.Perm events) :=
    (h events' hperm (Text.unlines [(probeSpelling other hword).line]) 0 .zero).total other
  rw [hlines] at hsame
  generalize (probeSpelling other hword).line = line at hsample hsame
  have htotal (events') : (collect [line] 0 .zero events').total other = 1 ↔
      CountsFor [line] 0 .zero events' other line := by
    rw [total_collect, List.countP_singleton]
    simp
  have hown : CountsFor [line] 0 .zero (other :: events.erase other) other line :=
    (countsFor_iff hsample).2 (eventOf_eq_some_iff.2 ⟨[], _, rfl, .inl rfl, nofun⟩)
  have hone : (collect [line] 0 .zero events).total other = 1 :=
    (hsame _ (List.perm_cons_erase hother).symm).symm.trans ((htotal _).2 hown)
  refine (countsFor_own_iff hsample hother).1 (fun events' hperm => ?_) asked hasked hmatch
  exact (htotal events').1 ((hsame events' hperm).trans hone)

/-- **When the order of events is no matter.**  In every order of the same events the same is found
in every captured text exactly if no event is another one with a modifier.  A sample counts in
every order for the event of its own name exactly if this is the only one asked for that it
matches: otherwise the order decides whether it does. -/
theorem collect_orderless (events : List String) :
    ((∀ events', events'.Perm events → ∀ script pid skip,
      SameFindings (collect (Text.lines script) pid skip events')
        (collect (Text.lines script) pid skip events)) ↔ Separate events) ∧
    ∀ script pid skip line event, IsSampleOf (Text.lines script) pid skip line event →
      event ∈ events →
      ((∀ events', events'.Perm events →
        CountsFor (Text.lines script) pid skip events' event line) ↔
        ∀ asked ∈ events, Matches event asked → asked = event) := by
  refine ⟨⟨separate_of_orderless, fun hseparate events' hperm script pid skip => ?_⟩,
    fun _ _ _ _ _ hsample hmem => countsFor_own_iff hsample hmem⟩
  refine sameFindings_of_perm ?_ (by rwa [events_collect, events_collect])
  rw [collect_eq, collect_eq]
  have hline : countedAs pid skip events' (firstSample? (Text.lines script)) =
      countedAs pid skip events (firstSample? (Text.lines script)) :=
    funext (countedAs_of_perm hseparate hperm _)
  rw [hline]

/-- A sample with a modifier that is asked for after and before the event without it. -/
theorem collect_orderless_modifier :
    let line := "4242 1.5: cycles:u: 401000 hot_loop (/opt/bench/worker)"
    let script := Text.unlines [line]
    let found := collect (Text.lines script) 4242 .zero
    IsSampleOf (Text.lines script) 4242 .zero line "cycles:u" ∧
      ¬ Separate ["cycles", "cycles:u"] ∧
      (found ["cycles", "cycles:u"]).total "cycles:u" = 0 ∧
      (found ["cycles:u", "cycles"]).total "cycles:u" = 1 ∧
      (found ["cycles:u", "cycles"]).top "cycles:u" 1 = [(⟨"hot_loop", "/opt/bench/worker"⟩, 1)] ∧
      ¬ ∀ events', events'.Perm ["cycles", "cycles:u"] →
        CountsFor (Text.lines script) 4242 .zero events' "cycles:u" line := by
  intro line script found
  have hmatch : Matches "cycles:u" "cycles" := .inr ⟨"u", rfl⟩
  have hlines : Text.lines script = [line] := by decide +kernel
  have hsome : (Sample.parse line).isSome := by decide +kernel
  obtain ⟨s, hs⟩ := Option.isSome_iff_exists.1 hsome
  have hread : (Sample.parse line).map (fun s => (s.pid, s.event)) = some (4242, "cycles:u") := by
    decide +kernel
  obtain ⟨hpid, hevent⟩ : s.pid = 4242 ∧ s.event = "cycles:u" := by
    rw [hs] at hread
    exact Prod.mk.inj (Option.some.inj hread)
  have htime : (Sample.parse line).all fun s => ¬ s.time - s.time < Duration.zero.inSeconds := by
    decide +kernel
  have hsample : IsSampleOf (Text.lines script) 4242 .zero line "cycles:u" := by
    refine ⟨s, ?_, s, hs, hpid, ?_, hevent⟩
    · rw [hlines, firstSample?, List.findSome?_cons, hs]
      rfl
    · rw [hs] at htime
      exact of_decide_eq_true htime
  obtain ⟨-, hown⟩ := collect_orderless ["cycles", "cycles:u"]
  refine ⟨hsample, ?_, ?_, ?_, ?_, fun h => ?_⟩
  · intro hseparate
    have hsame := hseparate "cycles" (by decide) "cycles:u" (by decide) (by decide) hmatch
    exact absurd hsame (by decide)
  · decide +kernel
  · decide +kernel
  · decide +kernel
  · have hone := (hown script 4242 .zero line "cycles:u" hsample (by decide)).1 h
    exact absurd (hone "cycles" (by decide) hmatch) (by decide)

end Hotspots

end Microbench
