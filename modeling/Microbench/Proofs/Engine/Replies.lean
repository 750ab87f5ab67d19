import Microbench.Proofs.Dict
import Microbench.Proofs.Engine.Batches
import Microbench.Proofs.Engine.Moves
import Microbench.Proofs.Engine.Thinning

/-!
# What a thread holds of its replies

The meter of a thread and what it has recorded are known from the replies to its measured
invocations: how many there were, the values that were reported, and the finite ones among
the recordings.  Only which times are kept is another matter, but how many of them there are
depends on the number of invocations alone.

## Main definitions

* `repliesOf` — the replies to the invocations of a thread.
* `Work.Keeps`, `Work.Holds` — what a thread has kept of replies, and what it has once they are
  counted.
* `Yields` — what is promised of an answer that is no failure, and of the exchanges before it.

## Main results

* `Bench.yields_batch` — **a batch adds the replies to its invocations.**
* `Work.Holds.samples_reported`, `Work.Holds.length_samples`, `Work.Holds.samples_eq_nil` — the
  samples of a thread.
* `Recorded.get?_ofReplies` — what is recorded under a label.
-/

namespace Microbench

/-! ### Replies -/

/-- The reply of a thread, if this is one of its invocations and was answered. -/
def Exchange.reply? (seat : Seat) (x : Exchange) : Option Reply :=
  match x.call, x.answer with
  | .invoke s, .ok reply => if s = seat then some reply else none
  | _, _ => none

/-- The replies to the invocations of a thread, in order. -/
def repliesOf (seat : Seat) (log : List Exchange) : List Reply := log.filterMap (·.reply? seat)

@[simp] theorem repliesOf_nil (seat : Seat) : repliesOf seat [] = [] := rfl

@[simp] theorem repliesOf_append (seat : Seat) (log more : List Exchange) :
    repliesOf seat (log ++ more) = repliesOf seat log ++ repliesOf seat more :=
  List.filterMap_append

@[simp] theorem repliesOf_answered (seat : Seat) (reply : Reply) :
    repliesOf seat [⟨.invoke seat, .ok reply⟩] = [reply] := by
  simp [repliesOf, Exchange.reply?]

theorem mem_repliesOf {seat : Seat} {log : List Exchange} {reply : Reply} :
    reply ∈ repliesOf seat log ↔ ⟨.invoke seat, .ok reply⟩ ∈ log := by
  rw [repliesOf, List.mem_filterMap]
  constructor
  · rintro ⟨⟨call, answer⟩, hx, hreply⟩
    unfold Exchange.reply? at hreply
    split at hreply
    · next s reply' hcall hanswer =>
      dsimp only at hcall hanswer
      subst hcall hanswer
      split at hreply
      · next hs =>
        subst hs
        obtain rfl := Option.some.inj hreply
        exact hx
      · cases hreply
    · cases hreply
  · intro hx
    exact ⟨_, hx, if_pos rfl⟩

/-- Where a thread does not invoke it has no replies. -/
theorem repliesOf_eq_nil {seat : Seat} {log : List Exchange}
    (h : ∀ x ∈ log, x.call ≠ .invoke seat) : repliesOf seat log = [] := by
  refine List.eq_nil_iff_forall_not_mem.2 fun reply hreply => ?_
  exact h _ (mem_repliesOf.1 hreply) rfl

/-- The value that an invocation has reported. -/
def Reply.value? (reply : Reply) : Option Float :=
  match reply.outcome with
  | .timed => none
  | .reported value => some value

/-- The values that invocations have reported. -/
def reportedValues (replies : List Reply) : List Float := replies.filterMap Reply.value?

/-- What invocations have recorded. -/
def Recorded.ofReplies (replies : List Reply) : Recorded :=
  (replies.flatMap (·.recordings)).foldl Recorded.add .empty

/-! ### What is kept of replies -/

/-- What a thread keeps of these replies, whether or not they are counted. -/
structure Work.Keeps (replies : List Reply) (w : Work) : Prop where
  /-- All of them could be taken. -/
  finite : ∀ reply ∈ replies, reply.outcome.isFinite = true
  /-- The values that were reported. -/
  reported : w.meter.reported.toList = reportedValues replies
  /-- What was recorded. -/
  recorded : w.recorded = .ofReplies replies

/-- What a meter has of so many invocations in a mode, beside reported values. -/
structure Meter.Counts (mode : Mode) (n : Nat) (m : Meter) : Prop where
  /-- All of them are counted. -/
  operations : m.operations = n
  /-- If they are sampled, every so many of them have been timed. -/
  sampled : mode = .sampleTime → ∃ item t, m.sampler = some t ∧ t.capacity = maxSamples ∧
    t.Spaced item n
  /-- If they are not, there is no sampler. -/
  whole : mode ≠ .sampleTime → m.sampler = none

/-- What a thread has measured and recorded in invocations with these replies. -/
structure Work.Holds (mode : Mode) (replies : List Reply) (w : Work) : Prop
    extends w.Keeps replies, w.meter.Counts mode replies.length

theorem Work.holds_nil (mode : Mode) : (⟨.ofMode mode, .empty⟩ : Work).Holds mode [] where
  finite _ h := nomatch h
  reported := rfl
  recorded := rfl
  operations := rfl
  sampled h := by
    refine ⟨fun _ => .zero, .ofCapacity Meter.maxSamples, ?_, rfl, Thinning.spaced_ofCapacity _ _⟩
    rw [Meter.ofMode, if_pos h]
  whole h := by
    rw [Meter.ofMode, if_neg h]

namespace Work

variable {w w' : Work} {replies : List Reply} {reply : Reply} {mode : Mode} {n : Nat}

/-- What is measured beside reported values does not matter to what is kept. -/
theorem Keeps.congr (h : w.Keeps replies) (hreported : w'.meter.reported = w.meter.reported)
    (hrecorded : w'.recorded = w.recorded) : w'.Keeps replies := by
  refine ⟨h.finite, ?_, hrecorded.trans h.recorded⟩
  rw [hreported]
  exact h.reported

/-- A reply that is taken is kept, and changes nothing that is counted. -/
theorem Keeps.take (h : w.Keeps replies) (htake : w.take reply = .ok w') :
    w'.Keeps (replies ++ [reply]) ∧ w'.meter.operations = w.meter.operations ∧
      w'.meter.sampler = w.meter.sampler := by
  obtain ⟨outcome, recordings⟩ := reply
  have hrecorded : recordings.foldl Recorded.add w.recorded =
      .ofReplies (replies ++ [⟨outcome, recordings⟩]) := by
    simp [Recorded.ofReplies, List.foldl_append, h.recorded]
  cases outcome with
  | timed =>
    cases htake
    refine ⟨⟨?_, ?_, hrecorded⟩, rfl, rfl⟩
    · exact List.forall_mem_append.2 ⟨h.finite, List.forall_mem_singleton.2 rfl⟩
    · simp [reportedValues, Reply.value?, h.reported]
  | reported value =>
    rw [Work.take, Meter.take] at htake
    by_cases hfinite : Binary.isFinite value = true
    · rw [if_pos hfinite] at htake
      cases htake
      refine ⟨⟨?_, ?_, hrecorded⟩, rfl, rfl⟩
      · exact List.forall_mem_append.2 ⟨h.finite, List.forall_mem_singleton.2 hfinite⟩
      · simp [reportedValues, Reply.value?, h.reported]
    · rw [if_neg hfinite] at htake
      cases htake

/-- Invocations that are timed as a whole are counted at the end. -/
theorem counts_plain (h : w.meter.Counts mode n) (hmode : mode ≠ .sampleTime) (k : Nat)
    (elapsed : Duration) :
    ({ w.meter with
      operations := w.meter.operations + k
      elapsed := elapsed } : Meter).Counts mode (n + k) where
  operations := congrArg (· + k) h.operations
  sampled hsample := absurd hsample hmode
  whole := h.whole

/-- An invocation that is timed by itself, if it is to be timed. -/
theorem counts_single (h : w.meter.Counts mode n) {elapsed : Option Duration}
    (helapsed : elapsed.isSome = (Bench.wantsTime w).1) :
    (Bench.count (Bench.wantsTime w).2 elapsed).meter.Counts mode (n + 1) := by
  by_cases hmode : mode = .sampleTime
  · obtain ⟨item, t, hsampler, hcapacity, hspaced⟩ := h.sampled hmode
    have hwants : Bench.wantsTime w =
        (t.advance.1, { w with meter := { w.meter with sampler := some t.advance.2 } }) := by
      rw [Bench.wantsTime, hsampler]
    rw [hwants] at helapsed ⊢
    cases elapsed with
    | none =>
      have hskip : t.advance.1 = false := helapsed.symm
      refine ⟨congrArg (· + 1) h.operations, fun _ => ?_, fun hne => absurd hmode hne⟩
      exact ⟨item, t.advance.2, rfl, hcapacity, hspaced.skip hskip⟩
    | some d =>
      have hwanted : t.advance.1 = true := helapsed.symm
      refine ⟨congrArg (· + 1) h.operations, fun _ => ?_, fun hne => absurd hmode hne⟩
      -- the time is the item of this invocation, and the items before it stay as they are
      let item' (k : Nat) : Duration := if k = n + 1 then d else item k
      have hbefore : t.Spaced item' n := hspaced.congr fun k hk => (if_neg (by omega)).symm
      have hitem : item' (n + 1) = d := if_pos rfl
      refine ⟨item', t.advance.2.push d, rfl, ?_, hitem ▸ hbefore.push hwanted⟩
      exact (Thinning.capacity_push _ _).trans hcapacity
  · have hsampler := h.whole hmode
    have hwants : Bench.wantsTime w = (true, w) := by
      rw [Bench.wantsTime, hsampler]
    rw [hwants] at helapsed ⊢
    refine ⟨?_, fun hsample => absurd hsample hmode, fun _ => ?_⟩
    · cases elapsed <;> exact congrArg (· + 1) h.operations
    · cases elapsed with
      | none => exact hsampler
      | some d =>
        show w.meter.sampler.map _ = none
        rw [hsampler]
        rfl

end Work

/-! ### Answers that are no failures -/

variable {σ α β ε : Type}

/-- Whatever the world is, an answer that is no failure is as said, with the exchanges before it. -/
def Yields (x : ExceptT ε (Watched σ) α) (Q : α → List Exchange → Prop) : Prop :=
  Logs x.run fun r log => ∀ a, r = .ok a → Q a log

namespace Yields

variable {P : α → List Exchange → Prop} {Q : β → List Exchange → Prop}
  {x : ExceptT ε (Watched σ) α} {f : α → ExceptT ε (Watched σ) β}

theorem pure {a : α} (h : P a []) : Yields (σ := σ) (ε := ε) (Pure.pure a) P := by
  rintro world _ ⟨⟩
  exact h

theorem throw {e : ε} : Yields (σ := σ) (throw e : ExceptT ε (Watched σ) α) P :=
  fun _ _ h => nomatch h

theorem bind (hx : Yields x P)
    (hf : ∀ a log, P a log → Yields (f a) fun b more => Q b (log ++ more)) :
    Yields (x >>= f) Q := by
  unfold Yields
  rw [ExceptT.run_bind]
  refine Logs.bind hx fun r log hr => ?_
  cases r with
  | ok a => exact hf a log (hr a rfl)
  | error e => exact Logs.pure nofun

theorem mono {R : α → List Exchange → Prop} (h : Yields x P)
    (himp : ∀ a log, P a log → R a log) : Yields x R :=
  Logs.mono h fun _ log hr a ha => himp a log (hr a ha)

theorem of_asksOnly {P : Exchange → Prop} (h : AsksOnly P x) :
    Yields x fun _ log => ∀ y ∈ log, P y :=
  Logs.mono h fun _ _ hlog _ _ => hlog

end Yields

namespace Bench

variable {b : Bench (StateM σ)} {seat : Seat} {w : Work} {prior : List Reply}

theorem yields_now : Yields b.watched.now fun _ log => log = [] := fun _ _ _ => rfl

/-- The clock is looked at if that is wanted. -/
theorem yields_look (wanted : Bool) :
    Yields (b.watched.look wanted) fun t log => log = [] ∧ t.isSome = wanted := by
  cases wanted with
  | true =>
    rintro world _ ⟨⟩
    exact ⟨rfl, rfl⟩
  | false => exact Yields.pure ⟨rfl, rfl⟩

theorem yields_invoke (site : Site) (thread : Option Nat) :
    Yields (b.watched.call site thread (.invoke seat)) fun reply log =>
      repliesOf seat log = [reply] := by
  refine (logs_call site thread _).mono fun r log hlog reply hr => ?_
  obtain ⟨answer, rfl, rfl⟩ := hlog
  cases answer with
  | ok reply' =>
    cases hr
    exact repliesOf_answered seat reply
  | error e => cases hr

theorem yields_accept (reply : Reply) :
    Yields (b.watched.accept seat w reply) fun w' log => log = [] ∧ w.take reply = .ok w' := by
  unfold accept
  split
  · next w' htake => exact Yields.pure ⟨rfl, htake⟩
  · exact Yields.throw

/-- A fixture is no invocation. -/
theorem yields_invocationFixtures (stage : Stage) :
    Yields (b.watched.invocationFixtures seat stage) fun _ log => repliesOf seat log = [] := by
  have hnone : AsksOnly (fun x => x.call ≠ .invoke seat)
      (b.watched.invocationFixtures seat stage) := by
    refine AsksOnly.forM fun scope _ => ?_
    split
    · exact (asksOnly_call _ _ fun _ => nofun).bind fun _ => AsksOnly.pure
    · exact AsksOnly.pure
  exact (Yields.of_asksOnly hnone).mono fun _ _ => repliesOf_eq_nil

/-- Invocations in a row are kept, but not counted. -/
theorem yields_invokeTimes (n : Nat) {w : Work} {prior : List Reply} (h : w.Keeps prior) :
    Yields (b.watched.invokeTimes seat n w) fun w' log =>
      w'.Keeps (prior ++ repliesOf seat log) ∧ (repliesOf seat log).length = n ∧
        w'.meter.operations = w.meter.operations ∧ w'.meter.sampler = w.meter.sampler := by
  induction n generalizing w prior with
  | zero =>
    refine Yields.pure ⟨?_, rfl, rfl, rfl⟩
    rwa [repliesOf_nil, List.append_nil]
  | succ n ih =>
    refine (yields_invoke _ _).bind fun reply log hlog => ?_
    refine (yields_accept reply).bind ?_
    rintro w₁ _ ⟨rfl, htake⟩
    obtain ⟨hkeeps, hoperations, hsampler⟩ := h.take htake
    refine (ih hkeeps).mono ?_
    rintro w' more ⟨hmore, hlength, hoperations', hsampler'⟩
    refine ⟨?_, ?_, hoperations'.trans hoperations, hsampler'.trans hsampler⟩
    · simpa [hlog] using hmore
    · simp [hlog, hlength]

/-- A batch that is timed as a whole. -/
theorem yields_plainBatch (hmode : b.settings.mode ≠ .sampleTime) (n : Nat)
    (h : w.Holds b.settings.mode prior) :
    Yields (b.watched.plainBatch seat n w) fun w' log =>
      w'.Holds b.settings.mode (prior ++ repliesOf seat log) ∧
        (repliesOf seat log).length = n := by
  refine yields_now.bind ?_
  rintro start _ rfl
  refine (yields_invokeTimes n h.toKeeps).bind ?_
  rintro w₁ log ⟨hkeeps, hlength, hoperations, hsampler⟩
  refine yields_now.bind ?_
  rintro stop _ rfl
  refine Yields.pure ?_
  rw [List.nil_append, List.append_nil, List.append_nil]
  have hcounts : w₁.meter.Counts b.settings.mode prior.length :=
    ⟨hoperations.trans h.operations, fun hsample => absurd hsample hmode,
      fun _ => hsampler.trans (h.whole hmode)⟩
  refine ⟨⟨hkeeps.congr rfl rfl, ?_⟩, hlength⟩
  rw [List.length_append, hlength]
  exact Work.counts_plain hcounts hmode n _

/-- A batch whose invocations are run between their fixtures and counted one by one. -/
theorem yields_bracketedBatch (n : Nat) {w : Work} {prior : List Reply}
    (h : w.Holds b.settings.mode prior) :
    Yields (b.watched.bracketedBatch seat n w) fun w' log =>
      w'.Holds b.settings.mode (prior ++ repliesOf seat log) ∧
        (repliesOf seat log).length = n := by
  induction n generalizing w prior with
  | zero =>
    refine Yields.pure ⟨?_, rfl⟩
    rwa [repliesOf_nil, List.append_nil]
  | succ n ih =>
    unfold bracketedBatch
    dsimp only
    rw [invocation_bind]
    refine (yields_invocationFixtures .setup).bind fun _ before hbefore => ?_
    refine (yields_look _).bind ?_
    rintro start _ ⟨rfl, hstart⟩
    refine (yields_invoke _ _).bind fun reply log hlog => ?_
    refine (yields_look _).bind ?_
    rintro stop _ ⟨rfl, hstop⟩
    refine (yields_invocationFixtures .teardown).bind fun _ after hafter => ?_
    refine (yields_accept reply).bind ?_
    rintro w₁ _ ⟨rfl, htake⟩
    have helapsed : (start.bind fun t => stop.map fun t' => t'.minus t).isSome =
        (wantsTime w).1 := by
      rw [← hstart] at hstop
      cases start with
      | none => exact hstart
      | some t =>
        obtain ⟨t', rfl⟩ := Option.isSome_iff_exists.1 hstop
        exact hstart
    -- the reply is counted first and kept then
    have hcounted := Work.counts_single h.toCounts helapsed
    have htally := (tally_count (wantsTime w).2
      (start.bind fun t => stop.map fun t' => t'.minus t)).trans
        (congrArg (Tally.plus · 1) (tally_wantsTime w))
    have hkept := h.toKeeps.congr (congrArg Tally.reported htally) (congrArg Tally.recorded htally)
    obtain ⟨hkeeps, hoperations, hsampler⟩ := hkept.take htake
    have hholds : w₁.Holds b.settings.mode (prior ++ [reply]) := by
      refine ⟨hkeeps, ?_⟩
      rw [List.length_append]
      refine ⟨hoperations.trans hcounted.operations, fun hmode => ?_, fun hmode => ?_⟩
      · rw [hsampler]
        exact hcounted.sampled hmode
      · exact hsampler.trans (hcounted.whole hmode)
    refine (ih hholds).mono ?_
    rintro w' more ⟨hmore, hlength⟩
    refine ⟨?_, ?_⟩
    · simpa [hbefore, hlog, hafter] using hmore
    · simp [hbefore, hlog, hafter, hlength]

/-- **A batch adds the replies to its invocations**, as many as there are to be. -/
theorem yields_batch (n : Nat) (h : w.Holds b.settings.mode prior) :
    Yields (b.watched.batch seat n w) fun w' log =>
      w'.Holds b.settings.mode (prior ++ repliesOf seat log) ∧
        (repliesOf seat log).length = n := by
  unfold batch
  split
  · exact yields_bracketedBatch n h
  · next hplain =>
    refine yields_plainBatch (fun hmode => hplain ?_) n h
    rw [isBracketed]
    exact Bool.or_eq_true_iff.2 (.inl (decide_eq_true hmode))

end Bench

/-! ### The samples of a thread -/

namespace Work.Holds

variable {w : Work} {mode : Mode} {replies : List Reply}

theorem isEmpty_reported (h : w.Holds mode replies) :
    w.meter.reported.isEmpty = (reportedValues replies).isEmpty := by
  rw [← h.reported, Array.isEmpty_toList]

/-- Where values were reported they are the samples. -/
theorem samples_reported (h : w.Holds mode replies) (unit : TimeUnit)
    (hsome : reportedValues replies ≠ []) :
    w.meter.samples mode unit = reportedValues replies := by
  have hempty : w.meter.reported.isEmpty = false := by
    rw [h.isEmpty_reported]
    exact List.isEmpty_eq_false_iff.2 hsome
  unfold Meter.samples
  rw [hempty, ← h.reported]
  rfl

/-- Where none were, and the thread has invoked, there is one sample, or as many as the sampler has
kept. -/
theorem length_samples (h : w.Holds mode replies) (unit : TimeUnit)
    (hnone : reportedValues replies = []) (hreplies : replies ≠ []) :
    (mode ≠ .sampleTime → (w.meter.samples mode unit).length = 1) ∧
      (mode = .sampleTime → ∃ s, Thinning.IsStride Meter.maxSamples replies.length s ∧
        (w.meter.samples mode unit).length = replies.length / s) := by
  have hempty : (!w.meter.reported.isEmpty) = false := by
    rw [h.isEmpty_reported, hnone]
    rfl
  have hoperations : w.meter.operations ≠ 0 := by
    rw [h.operations]
    exact fun hzero => hreplies (List.length_eq_zero_iff.1 hzero)
  unfold Meter.samples
  rw [hempty, if_neg Bool.false_ne_true, if_neg hoperations]
  refine ⟨fun hmode => ?_, fun hmode => ?_⟩
  · cases mode with
    | sampleTime => exact absurd rfl hmode
    | _ => rfl
  · subst hmode
    obtain ⟨item, t, hsampler, hcapacity, hspaced⟩ := h.sampled rfl
    refine ⟨t.stride, hcapacity ▸ hspaced.stride, ?_⟩
    simp only [hsampler, List.length_map, Array.length_toList]
    exact hspaced.size_eq

/-- A thread has a sample if and only if it has invoked. -/
theorem samples_eq_nil (h : w.Holds mode replies) (unit : TimeUnit) :
    w.meter.samples mode unit = [] ↔ replies = [] := by
  constructor
  · intro hsamples
    by_contra hreplies
    by_cases hnone : reportedValues replies = []
    · obtain ⟨hone, hsampled⟩ := h.length_samples unit hnone hreplies
      rw [hsamples] at hone hsampled
      by_cases hmode : mode = .sampleTime
      · obtain ⟨s, hs, hlength⟩ := hsampled hmode
        have hpos : 0 < replies.length / s :=
          hs.div_pos (by decide) (List.length_pos_iff.2 hreplies)
        rw [← hlength] at hpos
        exact Nat.lt_irrefl 0 hpos
      · exact Nat.zero_ne_one (hone hmode)
    · rw [h.samples_reported unit hnone] at hsamples
      exact hnone hsamples
  · rintro rfl
    have hempty : (!w.meter.reported.isEmpty) = false := by
      rw [h.isEmpty_reported]
      rfl
    have hzero : w.meter.operations = 0 := h.operations
    unfold Meter.samples
    rw [hempty, if_neg Bool.false_ne_true, if_pos hzero]

end Work.Holds

/-! ### What is recorded under a label -/

/-- The finite samples that invocations have recorded under a label, in order. -/
def recordedUnder (label : String) (replies : List Reply) : List Recording :=
  (replies.flatMap (·.recordings)).filter fun x => x.label = label && Binary.isFinite x.value

theorem recordedUnder_append (label : String) (replies more : List Reply) :
    recordedUnder label (replies ++ more) =
      recordedUnder label replies ++ recordedUnder label more := by
  rw [recordedUnder, List.flatMap_append, List.filter_append]
  rfl

theorem flatten_map_recordedUnder (label : String) (groups : List (List Reply)) :
    (groups.map (recordedUnder label)).flatten = recordedUnder label groups.flatten := by
  induction groups with
  | nil => rfl
  | cons replies groups ih =>
    rw [List.map_cons, List.flatten_cons, List.flatten_cons, ih, recordedUnder_append]

/-- These samples in a row; the first gives unit and policy. -/
def Series.ofRecordings? : List Recording → Option Series
  | [] => none
  | first :: rest =>
    some ⟨first.unit, first.policy, ((first :: rest).map (·.value)).toArray⟩

theorem Series.ofRecordings?_append_singleton (recordings : List Recording) (x : Recording) :
    ofRecordings? (recordings ++ [x]) =
      let series := (ofRecordings? recordings).getD ⟨x.unit, x.policy, #[]⟩
      some { series with samples := series.samples.push x.value } := by
  cases recordings with
  | nil => rfl
  | cons first rest => simp [ofRecordings?]

/-- **Under a label stand the finite samples recorded there**, and nothing else has any influence on
them. -/
theorem Recorded.get?_ofReplies (replies : List Reply) (label : String) :
    (Recorded.ofReplies replies).get? label =
      Series.ofRecordings? (recordedUnder label replies) := by
  unfold ofReplies recordedUnder
  generalize replies.flatMap (·.recordings) = recordings
  induction recordings using List.reverseRecOn with
  | nil => rfl
  | append_singleton recordings x ih =>
    rw [List.foldl_append, List.foldl_cons, List.foldl_nil, List.filter_append, add]
    by_cases hfinite : Binary.isFinite x.value = true
    · rw [if_pos hfinite, Dict.get?_alter]
      by_cases hlabel : label = x.label
      · subst hlabel
        rw [if_pos rfl, ih, List.filter_cons_of_pos (by simpa using hfinite), List.filter_nil,
          Series.ofRecordings?_append_singleton]
      · rw [if_neg hlabel, ih, List.filter_cons_of_neg (by simp [Ne.symm hlabel]), List.filter_nil,
          List.append_nil]
    · rw [if_neg hfinite, ih, List.filter_cons_of_neg (by simp [hfinite]), List.filter_nil,
        List.append_nil]

end Microbench
