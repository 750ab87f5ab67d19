import Microbench.Proofs.Engine.Harvest
import Microbench.Proofs.Engine.Scripts
import Microbench.Proofs.Stats.Pooling

/-!
# Tasks that report

A task may report a value in every invocation.  What is reported is kept, all of it, while
measured times are thinned out.  So in an iteration with a given number of invocations the
meter of every thread has a value for each of them, and the primary metric of the
iteration has those of all threads together.

## Main definitions

* `Task.Reports` — every invocation reports a value.
* `Lane.Place.Has`, `Lane.Place.isDoomed` — what a lane has that has measured, and a lane whose
  iteration fails.
* `IterationResult.primaryCount` — the samples of the primary metric.

## Main results

* `Bench.kept_batch` — a batch keeps a value for every invocation.
* `Lane.has_advance`, `Round.has_run` — a step of a lane, and a whole round.
* `Conductor.report_counted` — **an iteration has a sample for every invocation of every thread.**
-/

namespace Microbench

variable {σ : Type}

/-- Every invocation that goes well reports a value. -/
def Task.Reports (t : Task (StateM σ)) : Prop :=
  ∀ seat, Ensures (t.call (.invoke seat)) fun reply => ∃ value, reply.outcome = .reported value

/-- How many values the meter of a thread has kept. -/
abbrev Work.kept (w : Work) : Nat := w.meter.reported.size

/-! ### One thread -/

/-- A value that is taken is kept. -/
theorem Work.kept_take {w w' : Work} {reply : Reply} {value : Float}
    (hreply : reply.outcome = .reported value) (h : w.take reply = .ok w') :
    w'.kept = w.kept + 1 := by
  rw [take, hreply, Meter.take] at h
  by_cases hfinite : Binary.isFinite value = true
  · rw [if_pos hfinite] at h
    cases h
    exact Array.size_push value
  · rw [if_neg hfinite] at h
    cases h

namespace Bench

variable {b : Bench (StateM σ)} {seat : Seat}

theorem reported_call (h : b.task.Reports) (site : Site) (thread : Option Nat) :
    Ensures (b.call site thread (.invoke seat)) fun reply =>
      ∃ value, reply.outcome = .reported value := by
  refine Always.bind (h seat) fun answer hanswer => ?_
  cases answer with
  | ok reply =>
    refine Always.pure ?_
    rintro _ ⟨⟩
    exact hanswer reply rfl
  | error e => exact Always.pure fun _ heq => nomatch heq

theorem kept_accept {w : Work} {reply : Reply} {value : Float}
    (hreply : reply.outcome = .reported value) :
    Ensures (b.accept seat w reply) fun w' => w'.kept = w.kept + 1 := by
  unfold accept
  split
  · next w' htake => exact Ensures.pure (w.kept_take hreply htake)
  · exact Ensures.throw

theorem kept_invokeTimes (h : b.task.Reports) (n : Nat) (w : Work) :
    Ensures (b.invokeTimes seat n w) fun w' => w'.kept = w.kept + n := by
  induction n generalizing w with
  | zero => exact Ensures.pure rfl
  | succ n ih =>
    refine (reported_call h _ _).bind fun reply hreply => ?_
    obtain ⟨value, hvalue⟩ := hreply
    refine (kept_accept hvalue).bind fun w₁ hw₁ => (ih w₁).mono fun w' hw' => ?_
    rw [hw', hw₁, Nat.add_right_comm, Nat.add_assoc]

theorem kept_plainBatch (h : b.task.Reports) (n : Nat) (w : Work) :
    Ensures (b.plainBatch seat n w) fun w' => w'.kept = w.kept + n := by
  refine Ensures.trivial.bind fun start _ => ?_
  refine (kept_invokeTimes h n w).bind fun w' hw' => ?_
  exact Ensures.trivial.bind fun stop _ => Ensures.pure hw'

/-- Neither counting an invocation nor asking for its time changes what has been kept. -/
theorem kept_count (w : Work) (elapsed : Option Duration) :
    (count (wantsTime w).2 elapsed).kept = w.kept := by
  unfold count wantsTime
  cases elapsed <;> cases w.meter.sampler <;> rfl

theorem kept_bracketedBatch (h : b.task.Reports) (n : Nat) (w : Work) :
    Ensures (b.bracketedBatch seat n w) fun w' => w'.kept = w.kept + n := by
  induction n generalizing w with
  | zero => exact Ensures.pure rfl
  | succ n ih =>
    unfold bracketedBatch
    dsimp only
    rw [invocation_bind]
    refine Ensures.trivial.bind fun _ _ => Ensures.trivial.bind fun start _ => ?_
    refine (reported_call h _ _).bind fun reply hreply => ?_
    obtain ⟨value, hvalue⟩ := hreply
    refine Ensures.trivial.bind fun stop _ => Ensures.trivial.bind fun _ _ => ?_
    refine (kept_accept hvalue).bind fun w₁ hw₁ => (ih w₁).mono fun w' hw' => ?_
    rw [hw', hw₁.trans (congrArg (· + 1) (kept_count w _)), Nat.add_right_comm, Nat.add_assoc]

/-- **A batch keeps a value for every invocation.** -/
theorem kept_batch (h : b.task.Reports) (n : Nat) (w : Work) :
    Ensures (b.batch seat n w) fun w' => w'.kept = w.kept + n := by
  unfold batch
  split
  · exact kept_bracketedBatch h n w
  · exact kept_plainBatch h n w

end Bench

/-! ### One iteration of all threads -/

namespace Lane

/-- A lane that has measured has kept so many values. -/
def Place.Has {m : Type → Type} (b : Bench m) (n : Nat) : Place → Prop
  | .measuring .. | .batching .. => False
  | .leaving (.ok work) | .idling work | .looking work | .spinning work | .closing work =>
    work.kept = n
  | .ended (.ok harvest) => ∃ work : Work, harvest = b.harvest work ∧ work.kept = n
  | _ => True

/-- Whether a lane has failed for good, and others may have been told. -/
def Place.isDoomed : Place → Bool
  | .arriving (some _) | .waiting (some _) | .refused _ | .leaving (.error _)
  | .ended (.error _) => true
  | _ => false

variable {b : Bench (StateM σ)} {length : IterationLength} {seat : Seat} {c : Common}

/-- A lane that has failed remains so. -/
theorem doomed_advance {place : Place} (h : place.isDoomed = true) :
    Always (advance b length seat c place) fun next => next.2.isDoomed = true := by
  cases place with
  | arriving refusal =>
    cases refusal with
    | some e => exact Always.pure rfl
    | none => cases h
  | waiting refusal =>
    unfold advance
    dsimp only
    split
    · exact Always.pure h
    · cases refusal with
      | some e => exact Always.pure rfl
      | none => cases h
  | refused e => exact Always.pure rfl
  | leaving outcome =>
    cases outcome with
    | error f => exact Always.pure rfl
    | ok work => cases h
  | ended outcome => exact Always.pure h
  | _ => cases h

/-- Where a lane can go while no lane has failed: on without raising the flag, or to where it has
failed itself. -/
def Goes (b : Bench (StateM σ)) (n : Nat) (next : Common × Place) : Prop :=
  next.2.isDoomed = true ∨ next.1.failed = false ∧ next.2.Has b n

theorem goes_settle {ε α : Type} {n : Nat} {x : ExceptT ε (StateM σ) α} {P : α → Prop}
    {ok : α → Place} {error : ε → Place} (hfailed : c.failed = false) (hx : Ensures x P)
    (hok : ∀ a, P a → (ok a).Has b n) (herror : ∀ e, (error e).Has b n) :
    Always ((c, ·) <$> settle x ok error) (Goes b n) := by
  refine Always.map (Always.bind hx fun r hr => ?_)
  cases r with
  | ok a => exact Always.pure (.inr ⟨hfailed, hok a (hr a rfl)⟩)
  | error e => exact Always.pure (.inr ⟨hfailed, herror e⟩)

/-- A step of a lane in an iteration with so many invocations, while no lane has failed. -/
theorem has_advance (hreports : b.task.Reports) {n : UInt64} {place : Place}
    (hfailed : c.failed = false) (h : place.Has b n.toNat) :
    Always (advance b (.invocations n) seat c place) (Goes b n.toNat) := by
  cases place with
  | entering => exact goes_settle hfailed .trivial (fun _ _ => trivial) fun _ => trivial
  | alarming e => exact Always.pure (.inl rfl)
  | arriving refusal => exact Always.pure (.inr ⟨hfailed, trivial⟩)
  | waiting refusal =>
    unfold advance
    dsimp only
    split
    · exact Always.pure (.inr ⟨hfailed, trivial⟩)
    · cases refusal with
      | some e => exact Always.pure (.inl rfl)
      | none => exact Always.pure (.inr ⟨hfailed, trivial⟩)
  | refused e => exact Always.pure (.inl rfl)
  | checking =>
    -- the flag is not up, so the lane does measure
    unfold advance
    dsimp only
    rw [if_neg (ne_true_of_eq_false hfailed)]
    exact Always.pure (.inr ⟨hfailed, trivial⟩)
  | starting =>
    refine goes_settle hfailed (Bench.kept_batch hreports n.toNat _) (fun work hwork => ?_)
      fun _ => trivial
    exact hwork.trans (Nat.zero_add _)
  | measuring start pace work => exact h.elim
  | batching start pace size work => exact h.elim
  | broken f => exact Always.pure (.inl rfl)
  | leaving outcome =>
    cases outcome with
    | error f => exact Always.pure (.inl rfl)
    | ok work =>
      refine Always.pure (.inr ⟨hfailed, ?_⟩)
      dsimp only
      split
      · exact h
      · exact h
  | idling work =>
    refine Always.pure (.inr ⟨hfailed, ?_⟩)
    dsimp only
    split
    · exact h
    · exact h
  | looking work =>
    refine Always.pure (.inr ⟨hfailed, ?_⟩)
    dsimp only
    split
    · exact h
    · exact h
  | spinning work => exact goes_settle hfailed .trivial (fun _ _ => h) fun _ => trivial
  | closing work =>
    exact goes_settle hfailed .trivial (fun _ _ => ⟨work, rfl, h⟩) fun _ => trivial
  | failing f => exact Always.pure (.inl rfl)
  | ended outcome => exact Always.pure (.inr ⟨hfailed, h⟩)

end Lane

namespace Round

variable {b : Bench (StateM σ)} {n : UInt64}

/-- A round of so many lanes in which either one has failed, or the flag is not up and every lane
that has measured has a value for every invocation. -/
structure Has (b : Bench (StateM σ)) (n lanes : Nat) (r : Round) : Prop where
  length_eq : r.lanes.length = lanes
  has : (∃ lane ∈ r.lanes, lane.place.isDoomed = true) ∨
    r.common.failed = false ∧ ∀ lane ∈ r.lanes, lane.place.Has b n

theorem has_ofSeats (n : Nat) (seats : List Seat) : (ofSeats seats).Has b n seats.length := by
  refine ⟨List.length_map _, .inr ⟨rfl, fun lane hlane => ?_⟩⟩
  obtain ⟨seat, -, rfl⟩ := List.mem_map.1 hlane
  trivial

theorem has_step (hreports : b.task.Reports) {lanes : Nat} {r : Round} (h : r.Has b n.toNat lanes)
    (index : Nat) : Always (r.step b (.invocations n) index) (Has b n.toNat lanes) := by
  unfold step
  split
  · exact Always.pure h
  · next lane hlane =>
    obtain ⟨hlength, hhas⟩ := h
    have hmem := List.mem_of_getElem? hlane
    have hset (next : Common × Lane.Place) :
        (⟨lane.seat, next.2⟩ : Lane) ∈ r.lanes.set index { lane with place := next.2 } :=
      List.mem_set (List.getElem?_eq_some_iff.1 hlane).1 _
    rcases hhas with ⟨other, hother, hdoomed⟩ | ⟨hfailed, hhas⟩
    · by_cases hsame : lane.place.isDoomed = true
      · -- the lane that has failed moves
        refine Always.bind (Lane.doomed_advance hsame) fun next hnext => Always.pure ?_
        exact ⟨(List.length_set ..).trans hlength, .inl ⟨_, hset next, hnext⟩⟩
      · refine Always.bind Always.trivial fun next _ => Always.pure ?_
        refine ⟨(List.length_set ..).trans hlength, .inl ⟨other, ?_, hdoomed⟩⟩
        obtain ⟨i, hi⟩ := List.getElem?_of_mem hother
        refine List.mem_of_getElem? (i := i) ?_
        rw [List.getElem?_set_ne ?_, hi]
        rintro rfl
        cases hlane.symm.trans hi
        exact hsame hdoomed
    · refine Always.bind (Lane.has_advance hreports hfailed (hhas lane hmem)) fun next hnext => ?_
      refine Always.pure ⟨(List.length_set ..).trans hlength, ?_⟩
      rcases hnext with hdoomed | ⟨hflag, hplace⟩
      · exact .inl ⟨_, hset next, hdoomed⟩
      · refine .inr ⟨hflag, fun other hother => ?_⟩
        rcases List.mem_or_eq_of_mem_set hother with hmem | rfl
        · exact hhas other hmem
        · exact hplace

/-- A lane that has failed brings nothing home. -/
theorem outcome_of_doomed {lane : Lane} (h : lane.place.isDoomed = true) :
    ∃ f, outcome b lane = .error f := by
  unfold outcome
  split
  · next outcome hplace =>
    rw [hplace] at h
    cases outcome with
    | ok harvest => cases h
    | error f => exact ⟨f, rfl⟩
  · exact ⟨_, rfl⟩

/-- **Every thread brings home a value for every invocation.** -/
theorem has_run (hreports : b.task.Reports) {patience : Nat} {seats : List Seat} :
    Ensures (run b (.invocations n) patience seats) fun harvests =>
      harvests.length = seats.length ∧
        ∀ h ∈ harvests, ∃ work : Work, h = b.harvest work ∧ work.kept = n.toNat := by
  refine ensures_run (has_ofSeats n.toNat seats) (fun r index hr => has_step hreports hr index) ?_
  intro r harvests hr hharvests
  have hall := forall₂_of_mapM_ok hharvests
  refine ⟨hall.length_eq.symm.trans hr.length_eq, fun h hmem => ?_⟩
  rcases hr.has with ⟨lane, hlane, hdoomed⟩ | ⟨-, hhas⟩
  · obtain ⟨f, hf⟩ := outcome_of_doomed (b := b) hdoomed
    obtain ⟨harvest, -, hok⟩ := exists_of_forall₂_of_mem hall.flip hlane
    cases hf.symm.trans hok
  · obtain ⟨lane, hlane, hover⟩ := exists_of_forall₂_of_mem hall hmem
    have hplace := hhas lane hlane
    unfold outcome at hover
    split at hover
    · next hended =>
      rw [hended, hover] at hplace
      exact hplace
    · cases hover

end Round

/-! ### What is reported of it -/

/-- The samples of the primary metric of an iteration. -/
def IterationResult.primaryCount {α : Type} (r : IterationResult α) : Nat :=
  (r.primary.toList.flatMap (·.samples)).length

/-- Where values were reported they are the samples of the primary metric. -/
theorem Meter.primary_of_reported (s : Settings) {m : Meter} (h : 0 < m.reported.size) :
    ∃ metric, m.primary s = some metric ∧ metric.role = .primary ∧
      metric.samples = m.reported.toList := by
  have hsamples : m.samples s.mode s.unit = m.reported.toList := by
    have hsome : (!m.reported.isEmpty) = true := by
      simpa [Array.isEmpty_iff_size_eq_zero] using Nat.ne_of_gt h
    unfold samples
    rw [if_pos hsome]
  have hnonempty : ¬ m.reported.toList.isEmpty = true := by
    rw [List.isEmpty_iff_length_eq_zero, Array.length_toList]
    exact Nat.ne_of_gt h
  unfold primary
  dsimp only
  rw [hsamples, if_neg hnonempty]
  exact ⟨_, rfl, rfl, rfl⟩

/-- Of the metrics of a thread only one is primary, and it has the reported values. -/
theorem Work.primaries_metrics (s : Settings) {w : Work} (h : 0 < w.kept) :
    ∃ metric, Pooling.primaries (w.metrics s) = [metric] ∧ metric.samples.length = w.kept := by
  obtain ⟨metric, hprimary, hrole, hsamples⟩ := Meter.primary_of_reported s h
  refine ⟨metric, ?_, by rw [hsamples, Array.length_toList]⟩
  have hrecorded : w.recorded.metrics.filter (·.role = .primary) = [] := by
    refine List.filter_eq_nil_iff.2 fun m hm => ?_
    obtain ⟨entry, -, rfl⟩ := List.mem_map.1 hm
    simp
  rw [Pooling.primaries, metrics, hprimary, List.filter_append, hrecorded]
  simp [hrole]

namespace Conductor

variable {c : Conductor (StateM σ)}

theorem primaryCount_ofThreads {harvests : List Harvest} {n : Nat} (hn : 0 < n)
    (h : ∀ h ∈ harvests, ∃ work : Work, h = c.harvest work ∧ work.kept = n) :
    (IterationResult.ofThreads (harvests.map (·.metrics))).primaryCount = n * harvests.length := by
  have hpool : (IterationResult.ofThreads (harvests.map (·.metrics))).primaryCount =
      ((Pooling.primaries (harvests.map (·.metrics)).flatten).flatMap (·.samples)).length :=
    congrArg List.length (Pooling.samples_pool_threads _)
  rw [hpool, Pooling.primaries]
  clear hpool
  induction harvests with
  | nil => rfl
  | cons harvest harvests ih =>
    obtain ⟨⟨work, rfl, hkept⟩, hrest⟩ := List.forall_mem_cons.1 h
    obtain ⟨metric, hprimaries, hlength⟩ := Work.primaries_metrics c.settings (hkept ▸ hn)
    have hfirst : (c.harvest work).metrics.filter (·.role = .primary) = [metric] := hprimaries
    rw [List.map_cons, List.flatten_cons, List.filter_append, hfirst, List.flatMap_append,
      List.flatMap_singleton, List.length_append, ih hrest, hlength, hkept, List.length_cons,
      Nat.mul_succ, Nat.add_comm]

/-- **An iteration has a sample for every invocation of every thread**, if the task reports. -/
theorem report_counted (hreports : c.task.Reports) {phase : Phase} {index : UInt32} {n : UInt64}
    (hlength : (c.settings.phase phase).length = .invocations n) (hn : 0 < n.toNat) :
    Ensures (c.report phase index) fun r =>
      r.result.primaryCount = n.toNat * (c.activeSeats index).length := by
  unfold report
  dsimp only
  rw [hlength]
  refine Ensures.bind Ensures.trivial fun before _ => ?_
  have hiteration : Ensures (c.runIteration (.invocations n) index) fun result =>
      result.primaryCount = n.toNat * (c.activeSeats index).length := by
    refine Ensures.bind Ensures.trivial fun _ _ => ?_
    refine (Round.has_run (b := c.toBench) hreports).bind fun harvests h => ?_
    obtain ⟨hcount, hkept⟩ := h
    refine Ensures.bind Ensures.trivial fun _ _ => Ensures.pure ?_
    rw [← hcount]
    exact primaryCount_ofThreads hn hkept
  refine hiteration.bind fun result hresult => ?_
  refine Ensures.bind (Ensures.lift (primary_askAfter _ result _)) fun after hafter => ?_
  refine Ensures.pure ?_
  rw [← hresult, IterationResult.primaryCount, IterationResult.primaryCount, hafter]

end Conductor

end Microbench
