import Microbench.Proofs.Engine.Layout
import Microbench.Proofs.Engine.Orders
import Microbench.Proofs.Engine.Requests

/-!
# Threads that measure nothing

A thread of a timed iteration looks at the clock before every batch, and so before the first
one.  If that look already shows that the time is over, the thread leaves its measured part
without having invoked anything.  There is no other way to measure nothing, as long as nothing
goes wrong: neither the length of the iteration nor the order of the threads can be to blame.  And
an iteration has a sample of every thread that has measured something.

## Main definitions

* `Round.Starts`, `Round.IsLate` — a thread has started its clock with its last step, and finds with
  its next one that the time is over.
* `IterationResult.Covers` — a result has samples of all threads but those that were late.

## Main results

* `Round.isLate_of_measured_nil`, `Round.measured_nil_of_isLate` — who was late has measured
  nothing, and nobody else.
* `Conductor.report_covers` — **a report covers all threads but those that were late**;
  `Conductor.report_idle_bare` is one in which all were.
-/

namespace Microbench

variable {σ : Type}

namespace Lane

/-- The lane is about to measure, and has not yet started its clock. -/
def Place.isStarting : Place → Bool
  | starting => true
  | _ => false

namespace Works

variable {m : Type → Type} {b : Bench m} {length : IterationLength} {seat : Seat} {now : Duration}
  {c c' : Common} {place place' : Place} {log : List Exchange} {start : Duration} {pace : Pace}
  {work : Work}

/-- A lane that starts a timed iteration starts its clock, and nothing else. -/
theorem of_starting {target : Duration}
    (h : Works b (.time target) seat now c .starting log c' place')
    (hlost : place'.isLost = false) :
    place' = .measuring now { target } (.fresh b.settings.mode) ∧ log = [] := by
  cases h with
  | ready before after same quiet unstarted => exact absurd rfl unstarted
  | lose lost cause =>
    rw [hlost] at lost
    cases lost
  | measure counted gains => cases counted
  | time timed =>
    cases timed
    exact ⟨rfl, rfl⟩
  | keep before after carries => cases before

/-- A lane whose time is over leaves with what it has. -/
theorem of_over (h : Works b length seat now c (.measuring start pace work) log c' place')
    (hover : pace.target.nanos ≤ (now.minus start).nanos) (hlost : place'.isLost = false) :
    place' = .leaving (.ok work) ∧ log = [] := by
  cases h with
  | ready before after same quiet unstarted => cases before
  | lose lost cause =>
    rw [hlost] at lost
    cases lost
  | enough past => exact ⟨rfl, rfl⟩
  | again under target some => exact absurd hover (Nat.not_le.2 under)
  | keep before after carries => cases before

end Works

end Lane

namespace Round

variable {b : Bench (StateM σ)} {length : IterationLength} {r : Round} {seats : List Seat}
  {seat : Seat} {world : σ} {former schedule : List Nat} {i k : Nat} {place : Lane.Place}

/-! ### One lane among the others -/

/-- With a step of its own a lane does what it does. -/
theorem works_own (b : Bench (StateM σ)) (length : IterationLength) (hnodup : seats.Nodup)
    (hplace : ((ofSeats seats).reached b length world former).lanes[i]? = some ⟨seat, place⟩) :
    ∃ c c' place' log,
      ((ofSeats seats).reached b length world (former ++ [i])).lanes[i]? = some ⟨seat, place'⟩ ∧
      Lane.Works b length seat ((ofSeats seats).clock b length world former) c place log c' place' ∧
      repliesOf seat ((ofSeats seats).written b length world (former ++ [i])) =
        repliesOf seat ((ofSeats seats).written b length world former) ++ repliesOf seat log := by
  obtain ⟨log, hreplies, hlane⟩ := lane_snoc b length hnodup i hplace
  rcases hlane with ⟨-, place', hplace', hworks⟩ | ⟨hne, -⟩
  · exact ⟨_, _, place', log, hplace', hworks, hreplies⟩
  · exact absurd rfl hne

/-- While the others move a lane stays where it is, and its thread does not invoke. -/
theorem still_of_not_mem (hnodup : seats.Nodup) {others : List Nat} (hothers : i ∉ others)
    (hplace : ((ofSeats seats).reached b length world former).lanes[i]? = some ⟨seat, place⟩) :
    ((ofSeats seats).reached b length world (former ++ others)).lanes[i]? = some ⟨seat, place⟩ ∧
      repliesOf seat ((ofSeats seats).written b length world (former ++ others)) =
        repliesOf seat ((ofSeats seats).written b length world former) := by
  induction others using List.reverseRecOn with
  | nil =>
    rw [List.append_nil]
    exact ⟨hplace, rfl⟩
  | append_singleton others index ih =>
    obtain ⟨hrest, hindex⟩ := not_or.1 (mt List.mem_append.2 hothers)
    obtain ⟨hplace', hstill⟩ := ih hrest
    obtain ⟨log, hreplies, hlane⟩ := lane_snoc b length hnodup index hplace'
    rw [← List.append_assoc]
    rcases hlane with ⟨rfl, -⟩ | ⟨-, hplace'', hquiet⟩
    · exact absurd (List.mem_singleton_self _) hindex
    · exact ⟨hplace'', by rw [hreplies, hquiet, List.append_nil, hstill]⟩

/-- A lane that has failed does not recover. -/
theorem isLost_append (hnodup : seats.Nodup)
    (hplace : ((ofSeats seats).reached b length world former).lanes[i]? = some ⟨seat, place⟩)
    (hlost : place.isLost = true) (latter : List Nat) :
    ∃ place', ((ofSeats seats).reached b length world (former ++ latter)).lanes[i]? =
      some ⟨seat, place'⟩ ∧ place'.isLost = true := by
  induction latter using List.reverseRecOn with
  | nil =>
    rw [List.append_nil]
    exact ⟨place, hplace, hlost⟩
  | append_singleton latter index ih =>
    obtain ⟨place', hplace', hlost'⟩ := ih
    obtain ⟨log, -, hlane⟩ := lane_snoc b length hnodup index hplace'
    rw [← List.append_assoc]
    rcases hlane with ⟨-, place'', hplace'', hworks⟩ | ⟨-, hplace'', -⟩
    · exact ⟨place'', hplace'', hworks.isLost_mono hlost'⟩
    · exact ⟨place', hplace'', hlost'⟩

/-- In a round that brings something home no lane has failed on the way. -/
theorem not_lost_of_brings (hnodup : seats.Nodup) {latter : List Nat} {harvests : List Harvest}
    (h : ((ofSeats seats).reached b length world (former ++ latter)).lanes.mapM (outcome b) =
      .ok harvests)
    (hplace : ((ofSeats seats).reached b length world former).lanes[i]? = some ⟨seat, place⟩) :
    place.isLost = false := by
  refine eq_false_of_ne_true fun hlost => ?_
  obtain ⟨place', hplace', hlost'⟩ := isLost_append hnodup hplace hlost latter
  obtain ⟨harvest, -, rfl⟩ := ended_of_brings h hplace'
  cases hlost'

/-! ### Threads that are late -/

/-- The last step of the lane with this index has started its clock, which has shown this. -/
def Starts (b : Bench (StateM σ)) (length : IterationLength) (r : Round) (world : σ)
    (schedule : List Nat) (i : Nat) (start : Duration) : Prop :=
  ∃ earlier others, schedule = earlier ++ i :: others ∧ i ∉ others ∧
    (r.reached b length world earlier).standsAt i Lane.Place.isStarting = true ∧
    start = r.clock b length world earlier

/-- The thread with this index is late: the iteration is timed, and the first step of its lane after
that which has started its clock finds that the time is over. -/
def IsLate (b : Bench (StateM σ)) (length : IterationLength) (r : Round) (world : σ)
    (schedule : List Nat) (i : Nat) : Prop :=
  ∃ target started later start, length = .time target ∧ schedule = started ++ i :: later ∧
    r.Starts b length world started i start ∧
    target.nanos ≤ ((r.clock b length world started).minus start).nanos

theorem Starts.append_ne {start : Duration} {index : Nat}
    (h : r.Starts b length world former i start) (hindex : index ≠ i) :
    r.Starts b length world (former ++ [index]) i start := by
  obtain ⟨earlier, others, rfl, hothers, hstarting, hstart⟩ := h
  refine ⟨earlier, others ++ [index], ?_, ?_, hstarting, hstart⟩
  · rw [List.append_assoc, List.cons_append]
  · rw [List.mem_append, List.mem_singleton]
    exact not_or.2 ⟨hothers, hindex.symm⟩

theorem IsLate.append (h : r.IsLate b length world former i) (latter : List Nat) :
    r.IsLate b length world (former ++ latter) i := by
  obtain ⟨target, started, later, start, htimed, rfl, hstarts, hover⟩ := h
  refine ⟨target, started, later ++ latter, start, htimed, ?_, hstarts, hover⟩
  rw [List.append_assoc, List.cons_append]

/-- What is known of a lane whose thread has not invoked: where it measures it has started its clock
with its last step, and where it leaves its measured part it is late, unless the flag is up. -/
def Lingers (b : Bench (StateM σ)) (length : IterationLength) (r : Round) (world : σ)
    (schedule : List Nat) (i : Nat) (failed : Bool) : Lane.Place → Prop
  | .measuring start _ _ => r.Starts b length world schedule i start
  | .leaving (.ok _) => failed = false → r.IsLate b length world schedule i
  | _ => True

theorem lingers_of_isEarly {failed : Bool} (h : place.isEarly = true) :
    r.Lingers b length world schedule i failed place := by
  cases place <;> trivial

theorem lingers_of_isLost {failed : Bool} (h : place.isLost = true) :
    r.Lingers b length world schedule i failed place := by
  cases place with
  | leaving outcome => cases outcome <;> trivial
  | _ => trivial

theorem lingers_of_hasKept {failed : Bool} (h : place.hasKept = true) :
    r.Lingers b length world schedule i failed place := by
  cases place <;> trivial

/-- A lane lingers on as long as its thread does not invoke. -/
theorem Lingers.step {c c' : Common} {place' : Lane.Place} {log : List Exchange}
    (h : r.Lingers b length world former i c.failed place) (hpos : length.isPositive)
    (hplace : (r.reached b length world former).lanes[i]? = some ⟨seat, place⟩)
    (haccounts : place.Accounts b length c.failed [])
    (hworks : Lane.Works b length seat (r.clock b length world former) c place log c' place')
    (hlog : repliesOf seat log = []) :
    r.Lingers b length world (former ++ [i]) i c'.failed place' := by
  cases hworks with
  | ready before after same quiet unstarted => exact lingers_of_isEarly after
  | lose lost cause => exact lingers_of_isLost lost
  | skip up =>
    intro hfailed
    rw [up] at hfailed
    cases hfailed
  | measure counted gains =>
    -- there is something to measure in a counted iteration
    obtain ⟨-, hlength⟩ := gains [] (Work.holds_nil _)
    rw [hlog, List.length_nil] at hlength
    rw [counted] at hpos
    exact absurd hlength hpos.ne
  | time timed =>
    refine ⟨former, [], rfl, List.not_mem_nil, ?_, rfl⟩
    rw [standsAt_of_getElem? hplace]
    rfl
  | @enough start pace work past =>
    intro hfailed
    rcases past with hover | hup
    · exact ⟨pace.target, former, [], start, haccounts.1, rfl, h, hover⟩
    · rw [hup] at hfailed
      cases hfailed
  | again under target some => trivial
  | batch gains =>
    -- there is an invocation in a batch
    obtain ⟨-, -, hsize, hholds⟩ := haccounts
    obtain ⟨-, hlength⟩ := gains [] hholds
    rw [hlog, List.length_nil] at hlength
    exact absurd hlength (Nat.pos_iff_ne_zero.1 hsize).symm
  | leave same carries => exact lingers_of_hasKept carries.hasKept
  | keep before after carries => exact lingers_of_hasKept after

/-- It does so while the others move. -/
theorem Lingers.append_ne {failed failed' : Bool} {index : Nat}
    (h : r.Lingers b length world former i failed place) (hindex : index ≠ i)
    (hdown : failed' = false → failed = false) :
    r.Lingers b length world (former ++ [index]) i failed' place := by
  cases place with
  | measuring start pace work => exact Starts.append_ne h hindex
  | leaving outcome =>
    cases outcome with
    | ok work => exact fun hfailed => (h (hdown hfailed)).append [index]
    | error f => trivial
  | _ => trivial

/-- **What is known of a lane** in every reachable state, and of one that has not invoked. -/
theorem accounts_lingers (b : Bench (StateM σ)) (hpos : length.isPositive) (hnodup : seats.Nodup)
    (hi : seats[i]? = some seat) (world : σ) (schedule : List Nat) :
    ∃ place, ((ofSeats seats).reached b length world schedule).lanes[i]? = some ⟨seat, place⟩ ∧
      let failed := ((ofSeats seats).reached b length world schedule).common.failed
      let replies := repliesOf seat ((ofSeats seats).written b length world schedule)
      place.Accounts b length failed replies ∧
        (replies = [] → (ofSeats seats).Lingers b length world schedule i failed place) := by
  refine lane_induction (P := fun former failed place replies =>
    place.Accounts b length failed replies ∧
      (replies = [] → (ofSeats seats).Lingers b length world former i failed place))
    hnodup hi world ⟨fun _ => rfl, fun _ => trivial⟩ ?_ ?_ schedule
  · intro former c place log c' place' replies hplace _ hworks ⟨haccounts, hlingers⟩
    refine ⟨hworks.accounts haccounts, fun hnil => ?_⟩
    obtain ⟨rfl, hlog⟩ := List.append_eq_nil_iff.1 hnil
    exact (hlingers rfl).step hpos hplace haccounts hworks hlog
  · intro former index failed failed' place replies hindex hdown ⟨haccounts, hlingers⟩
    exact ⟨haccounts.mono hdown, fun hnil => (hlingers hnil).append_ne hindex hdown⟩

/-- **A thread that has measured nothing was late.** -/
theorem isLate_of_measured_nil (hpos : length.isPositive) (hnodup : seats.Nodup)
    {harvests : List Harvest}
    (h : ((ofSeats seats).reached b length world schedule).lanes.mapM (outcome b) = .ok harvests)
    (hnone : (measured b length seats world schedule)[i]? = some []) :
    (ofSeats seats).IsLate b length world schedule i := by
  have hlt := (List.getElem?_eq_some_iff.1 hnone).1
  rw [length_measured] at hlt
  have hi : seats[i]? = some seats[i] := List.getElem?_eq_getElem hlt
  obtain ⟨k, w, hdeparts, -⟩ := departs_of_brings hnodup h hi
  rw [getElem?_measured hi hdeparts.1] at hnone
  -- it was late when it was about to leave
  obtain ⟨place, hplace, -, hlingers⟩ :=
    accounts_lingers b hpos hnodup hi world (schedule.take k)
  obtain ⟨seat, hleaving⟩ := workAt?_eq_some.1 hdeparts.2
  obtain ⟨-, rfl⟩ := Lane.mk.inj (Option.some.inj (hleaving.symm.trans hplace))
  have hdown := down_take _ (down_of_brings h) k
  have hlate := (hlingers (Option.some.inj hnone) hdown).append (schedule.drop k)
  rwa [List.take_append_drop] at hlate

/-- A lane that is about to leave its measured part has measured what its thread has replied. -/
theorem measured_of_leaving (hnodup : seats.Nodup) (hi : seats[i]? = some seat) {work : Work}
    {latter : List Nat} {harvests : List Harvest}
    (h : ((ofSeats seats).reached b length world (former ++ latter)).lanes.mapM (outcome b) =
      .ok harvests)
    (hplace : ((ofSeats seats).reached b length world former).lanes[i]? =
      some ⟨seat, .leaving (.ok work)⟩) :
    (measured b length seats world (former ++ latter))[i]? =
      some (repliesOf seat ((ofSeats seats).written b length world former)) := by
  have hmem : i ∈ latter := by
    by_contra hstill
    obtain ⟨harvest, -, hended⟩ := ended_of_brings h (still_of_not_mem hnodup hstill hplace).1
    cases hended
  obtain ⟨others, later, rfl, hothers⟩ := List.eq_append_cons_of_mem hmem
  obtain ⟨hplace', hreplies⟩ := still_of_not_mem hnodup hothers hplace
  obtain ⟨c, c', place, log, hnext, hworks, -⟩ := works_own b length hnodup hplace'
  rw [← List.append_assoc] at h ⊢
  -- with its next step it leaves
  have hleft : place.hasLeft = true := by
    cases hworks with
    | ready before after same quiet unstarted => cases before
    | lose lost cause =>
      rw [List.append_cons] at h
      rw [not_lost_of_brings hnodup h hnext] at lost
      cases lost
    | leave same carries => exact Lane.Place.hasLeft_of_hasKept carries.hasKept
    | keep before after carries => cases before
  have hleaves : (ofSeats seats).Leaves b length world (former ++ others ++ i :: later) i
      (former ++ others).length := by
    refine leaves_append ?_ ?_ later
    · rw [standsAt_of_getElem? hplace']
      rfl
    · rwa [standsAt_of_getElem? hnext]
  rw [getElem?_measured hi hleaves, List.take_left, hreplies]

/-- **A thread that was late has measured nothing.** -/
theorem measured_nil_of_isLate (hnodup : seats.Nodup) (hi : seats[i]? = some seat)
    {harvests : List Harvest}
    (h : ((ofSeats seats).reached b length world schedule).lanes.mapM (outcome b) = .ok harvests)
    (hlate : (ofSeats seats).IsLate b length world schedule i) :
    (measured b length seats world schedule)[i]? = some [] := by
  obtain ⟨target, started, later, start, rfl, rfl, hstarts, hover⟩ := hlate
  obtain ⟨earlier, others, hsplit, hothers, hstarting, rfl⟩ := hstarts
  rw [List.append_cons] at hsplit h ⊢
  -- it has not invoked before it starts its clock
  obtain ⟨place, hplace, haccounts⟩ := accounts b (.time target) hnodup hi world earlier
  rw [standsAt_of_getElem? hplace] at hstarting
  obtain rfl : place = .starting := by
    cases place <;> first | rfl | cases hstarting
  have hnone := haccounts rfl
  -- nor before it looks at it
  obtain ⟨c, c', place, log, hmeasuring, hworks, hstarts⟩ :=
    works_own b (.time target) hnodup hplace
  have hsound : place.isLost = false := by
    rw [hsplit, List.append_assoc, List.append_assoc] at h
    exact not_lost_of_brings hnodup h hmeasuring
  obtain ⟨rfl, rfl⟩ := hworks.of_starting hsound
  obtain ⟨hlooking, hwaits⟩ := still_of_not_mem hnodup hothers hmeasuring
  rw [← hsplit] at hlooking hwaits
  -- and then it leaves
  obtain ⟨c, c', place, log, hleaving, hworks, hleaves⟩ :=
    works_own b (.time target) hnodup hlooking
  obtain ⟨rfl, rfl⟩ := hworks.of_over hover (not_lost_of_brings hnodup h hleaving)
  rw [measured_of_leaving hnodup hi h hleaving, hleaves, hwaits, hstarts, hnone]
  rfl

end Round

/-! ### The report of an iteration -/

/-- What the result of an iteration covers in which so many threads have taken part, some of which
were late, when these were the replies to what they have measured and these the works with which
they have left. -/
structure IterationResult.Covers (s : Settings) (late : Nat → Prop) (threads : Nat)
    (measured : List (List Reply)) (works : List Work) (result : IterationResult) : Prop where
  /-- The threads are counted. -/
  threads_eq : result.threads = threads
  /-- All of them are considered. -/
  everyone : measured.length = threads
  /-- Who was late has measured nothing, and nobody else. -/
  invoked : ∀ i replies, measured[i]? = some replies → (replies = [] ↔ late i)
  /-- There is a primary metric if somebody was not late. -/
  primary_iff : result.primary.isSome ↔ ∃ i < threads, ¬ late i
  /-- Each thread has left with a work that is known from its replies. -/
  held : List.Forall₂ (fun w replies => w.Holds s.mode replies) works measured
  /-- The samples are those of one work after the other. -/
  samples : result.primary.toList.flatMap (·.samples) =
    works.flatMap (·.meter.samples s.mode s.unit)
  /-- All threads that were not late have some. -/
  sampled : ∀ i w, works[i]? = some w → (w.meter.samples s.mode s.unit = [] ↔ late i)

namespace IterationResult

variable {s : Settings} {works : List Work} {measured : List (List Reply)} {late : Nat → Prop}

/-- **What works cover.** -/
theorem covers_ofWorks
    (h : List.Forall₂ (fun w replies => Work.Holds s.mode replies w) works measured)
    (hlate : ∀ i replies, measured[i]? = some replies → (replies = [] ↔ late i)) :
    (ofWorks s works).Covers s late measured.length measured works := by
  obtain ⟨hsamples, hsome⟩ := primary_ofWorks s works
  constructor
  case threads_eq => rw [threads_ofWorks, h.length_eq]
  case everyone => rfl
  case invoked => exact hlate
  case primary_iff =>
    rw [hsome, Ne, Work.flatMap_samples_eq_nil h]
    constructor
    · intro hinvoked
      obtain ⟨replies, hreplies, hne⟩ := not_forall₂.1 hinvoked
      obtain ⟨i, hi⟩ := List.mem_iff_getElem?.1 hreplies
      exact ⟨i, (List.getElem?_eq_some_iff.1 hi).1, mt (hlate i replies hi).2 hne⟩
    · rintro ⟨i, hi, hne⟩ hnone
      exact hne ((hlate i _ (List.getElem?_eq_getElem hi)).1 (hnone _ (List.getElem_mem hi)))
  case held => exact h
  case samples => exact hsamples
  case sampled =>
    intro i w hw
    obtain ⟨hlt, rfl⟩ := List.getElem?_eq_some_iff.1 hw
    have hlt' : i < measured.length := h.length_eq ▸ hlt
    have hholds : works[i].Holds s.mode measured[i] := h.get hlt hlt'
    rw [hholds.samples_eq_nil]
    exact hlate i _ (List.getElem?_eq_getElem hlt')

/-- What the probes add to a result does not matter. -/
theorem Covers.attach {threads : Nat} {result : IterationResult}
    (h : result.Covers s late threads measured works) (extras : List Metric) :
    (extras.foldl addSecondary result).Covers s late threads measured works := by
  rw [foldl_addSecondary]
  exact ⟨h.threads_eq, h.everyone, h.invoked, h.primary_iff, h.held, h.samples, h.sampled⟩

end IterationResult

namespace Conductor

variable {c : Conductor (StateM σ)} {phase : Phase}

/-- In whatever order its threads have moved, a report of an iteration covers all of them but those
that were late. -/
theorem covers_of_ok (hpos : (c.settings.phase phase).length.isPositive) {index : UInt32}
    {schedule : List Nat} {world : σ} {r : Report}
    (h : ((c.reportAlong phase index schedule).run.run world).1 = .ok r) :
    r.result.Covers c.settings
      ((Round.ofSeats (c.activeSeats index)).IsLate c.toBench (c.settings.phase phase).length
        (c.opened (c.asked phase world)) schedule)
      (Whole.total ((c.settings.activeThreads index).map UInt32.toNat))
      (c.measured phase index world schedule) (c.works phase index world schedule) := by
  obtain ⟨hholds, extras, hresult, -⟩ := works_of_report h
  obtain ⟨harvests, hbrings⟩ := brings_of_report h
  rw [hresult, ← length_activeSeats, ← c.length_measured phase index world schedule]
  refine IterationResult.Covers.attach ?_ extras
  refine IterationResult.covers_ofWorks hholds fun i replies hreplies => ⟨?_, fun hlate => ?_⟩
  · rintro rfl
    exact Round.isLate_of_measured_nil hpos (nodup_activeSeats index) hbrings hreplies
  · have hlt := (List.getElem?_eq_some_iff.1 hreplies).1
    rw [length_measured] at hlt
    have hnil := Round.measured_nil_of_isLate (nodup_activeSeats index)
      (List.getElem?_eq_getElem hlt) hbrings hlate
    exact Option.some.inj (hreplies.symm.trans hnil)

/-- **A report covers all threads but those that were late.**  Of any settled trial, of whatever
length its iterations are and whatever its clock shows: an iteration is run in one of the orders in
which its threads can move; in any of them, where nothing goes wrong and all threads come to their
end there is a report; and in a report every thread has measured something and has samples, but for
the threads of a timed iteration that found its time to be over when they first looked. -/
theorem report_covers (c : Conductor (StateM σ)) {s : Spec} {d : Declaration}
    (hresolve : Settings.resolve s d = .ok c.settings) (phase : Phase) (index : UInt32)
    (world : σ) :
    let length := (c.settings.phase phase).length
    let threads := Whole.total ((c.settings.activeThreads index).map UInt32.toNat)
    let round := Round.ofSeats (c.activeSeats index)
    let start := c.opened (c.asked phase world)
    0 < threads ∧
    (∃ schedule, (c.report phase index).run.run world =
      (c.reportAlong phase index schedule).run.run world) ∧
    ∀ schedule,
      ((∀ x ∈ ((c.watched.reportAlong phase index schedule).run.run world).log, x.isGood = true) →
        (round.reached c.toBench length start schedule).isOver = true →
        ∃ r, ((c.reportAlong phase index schedule).run.run world).1 = .ok r) ∧
      ∀ r, ((c.reportAlong phase index schedule).run.run world).1 = .ok r →
        r.phase = phase ∧ r.index = index ∧
          r.result.Covers c.settings (round.IsLate c.toBench length start schedule) threads
            (c.measured phase index world schedule) (c.works phase index world schedule) := by
  intro length threads round start
  obtain ⟨hsome, hoccupied, hpositive⟩ := Settings.isPositive_of_resolve hresolve
  refine ⟨?_, exists_reportAlong phase index world,
    fun schedule => ⟨report_of_good, fun r hr => ?_⟩⟩
  · dsimp only [threads]
    rw [← length_activeSeats]
    exact List.length_pos_iff.2 (activeSeats_ne_nil hsome hoccupied index)
  · obtain ⟨hphase, hindex, -⟩ := report_of_ok hr
    exact ⟨hphase, hindex, covers_of_ok (hpositive phase) hr⟩

/-- A trial of the task that does nothing with two threads. -/
def paired : Conductor (StateM Nat) :=
  { idle with settings := { Settings.idle with
      measurement := ⟨.measurement, 1, .time ⟨2⟩⟩
      groups := [⟨Settings.implicitGroup, 2⟩] } }

/-- The specification of that trial. -/
def pairedSpec : Spec := { Spec.idle with
  threads := some 2
  measurement := { iterations := some 1, time := some ⟨2⟩ } }

/-- The first thread starts its clock and is held up until the second one has measured something.
So it is late, and there is a primary metric nevertheless. -/
theorem report_covers_paired :
    let schedule := [0, 0, 1, 1, 0, 0, 0, 1, 1, 1, 1, 1, 0, 1, 0, 1, 0, 1, 0, 1]
    let round := Round.ofSeats (paired.activeSeats 0)
    let start := paired.opened (paired.asked .measurement 0)
    Settings.resolve pairedSpec (TaskEntry.idle "idle").declaration = .ok paired.settings ∧
      round.IsLate paired.toBench (.time ⟨2⟩) start schedule 0 ∧
      ¬ round.IsLate paired.toBench (.time ⟨2⟩) start schedule 1 ∧
      ∃ r, ((paired.reportAlong .measurement 0 schedule).run.run 0).1 = .ok r ∧
        r.result.threads = 2 ∧ r.result.primary.isSome = true := by
  intro schedule round start
  have hresolve : Settings.resolve pairedSpec (TaskEntry.idle "idle").declaration =
      .ok paired.settings := rfl
  obtain ⟨-, -, halong⟩ := report_covers paired hresolve .measurement 0 0
  obtain ⟨hends, hcovers⟩ := halong schedule
  obtain ⟨r, hr⟩ := hends (by decide +kernel) (by decide +kernel)
  obtain ⟨-, -, hcovers⟩ := hcovers r hr
  have hmeasured : paired.measured .measurement 0 0 schedule = [[], [{}]] := by decide +kernel
  rw [hmeasured] at hcovers
  have hlate := (hcovers.invoked 0 [] rfl).1 rfl
  have hprompt := mt (hcovers.invoked 1 [{}] rfl).2 (List.cons_ne_nil _ _)
  exact ⟨hresolve, hlate, hprompt, r, hr, hcovers.threads_eq,
    hcovers.primary_iff.2 ⟨1, by decide, hprompt⟩⟩

/-- **A time that is over before anything is measured.**  Nothing goes wrong in the trial of the
task that does nothing, and its clock only goes forward; but one look at it takes as long as an
iteration is to last.  So its one thread does not invoke, and there is no primary metric. -/
theorem report_idle_bare :
    Settings.resolve .idle (TaskEntry.idle "idle").declaration = .ok idle.settings ∧
    (∀ n : Nat, (idle.host.now.run n).1.nanos = n ∧ n ≤ (idle.host.now.run n).2) ∧
    (idle.activeSeats 0).length = 1 ∧
    let seen := (idle.watched.report .measurement 0).run.run 0
    (∀ x ∈ seen.log, x.isGood = true) ∧ invocations seen.log = [] ∧
      ∃ r, ((idle.report .measurement 0).run.run 0).1 = .ok r ∧ r.result.threads = 1 ∧
        r.result.operations = 0 ∧ r.result.primary = none := by
  refine ⟨rfl, fun n => ⟨rfl, Nat.le_succ n⟩, by decide +kernel, by decide +kernel,
    by decide +kernel, .idle .measurement, ?_, rfl, rfl, rfl⟩
  rfl

end Conductor

end Microbench
