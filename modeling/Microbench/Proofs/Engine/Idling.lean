import Microbench.Proofs.Engine.Barrier

/-!
# The end of an iteration

A thread that has measured may have to keep on invoking until the others have measured too.
It looks at a count of those that have left their measured part, and at the flag.  Every
thread adds one to the count, whatever has become of it, and none adds more.  So a thread
invokes idly only after it has seen that another one was still at it, and as soon as the
last one has left, whoever looks at the count is done.

## Main definitions

* `Lane.Place.hasLeft` — a lane has left its measured part.
* `Round.Leaves` — a step with which a lane leaves it.
* `Round.CallsNext` — a call that a lane makes with its next step.
* `Round.Synchronised` — what is promised of the count and of idle invocations.

## Main results

* `Round.finished_eq` — the count is that of the lanes that have left.
* `Round.spinning_since` — the looks at what is shared before an idle invocation.
* `Round.run_synchronised` — **idle invocations do not outlive the measurement.**
-/

namespace Microbench

variable {σ : Type}

namespace Lane

/-! ### The measured part of a lane -/

/-- The lane has left its measured part and has counted itself. -/
def Place.hasLeft : Place → Bool
  | idling _ | looking _ | spinning _ | closing _ | failing _ | ended _ => true
  | _ => false

/-- The lane is about to look whether all have left. -/
def Place.isIdling : Place → Bool
  | idling _ => true
  | _ => false

/-- The lane has seen that some have not left, and is about to look at the flag. -/
def Place.isLooking : Place → Bool
  | looking _ => true
  | _ => false

/-- The lane invokes idly while others measure, or looks whether it has to. -/
def Place.isInLoop : Place → Bool
  | idling _ | looking _ | spinning _ => true
  | _ => false

/-- The lane is about to invoke idly. -/
def Place.isSpinning : Place → Bool
  | spinning _ => true
  | _ => false

/-- The lane is done with invoking. -/
def Place.isClosing : Place → Bool
  | closing _ => true
  | _ => false

theorem Place.isInLoop_of_isSpinning {place : Place} (h : place.isSpinning = true) :
    place.isInLoop = true := by
  cases place <;> first | rfl | cases h

/-- After the measured part there is no other work than idle invocations. -/
theorem Place.isSpinning_of_isAtWork {place : Place} (hleft : place.hasLeft = true)
    (hwork : place.isAtWork = true) : place.isSpinning = true := by
  cases place <;> simp_all [hasLeft, isAtWork, isSpinning]

namespace Moves

variable {m : Type → Type} {b : Bench m} {seat : Seat} {c c' : Common} {place place' : Place}
  {log : List Exchange}

theorem finished_add (h : Moves b seat c place log c' place') :
    c'.finished + (if place.hasLeft then 1 else 0) =
      c.finished + (if place'.hasLeft then 1 else 0) := by
  cases h <;> rfl

theorem hasLeft_mono (h : Moves b seat c place log c' place') (hleft : place.hasLeft = true) :
    place'.hasLeft = true := by
  cases h <;> first | rfl | cases hleft

/-- A lane only looks at the flag after it has seen that some have not left. -/
theorem isLooking_cases (h : Moves b seat c place log c' place')
    (hlooking : place'.isLooking = true) : place.isIdling = true ∧ c.finished < c.total := by
  cases h with
  | look few => exact ⟨rfl, few⟩
  | _ => cases hlooking

/-- A lane only invokes idly after it has seen the flag down. -/
theorem isSpinning_cases (h : Moves b seat c place log c' place')
    (hspinning : place'.isSpinning = true) : place.isLooking = true ∧ c.failed = false := by
  cases h with
  | spin down => exact ⟨rfl, down⟩
  | _ => cases hspinning

/-- Where all have left nobody waits for anybody. -/
theorem isClosing_of_all (h : Moves b seat c place log c' place') (hidling : place.isIdling = true)
    (hall : c.total ≤ c.finished) : place'.isClosing = true := by
  cases h with
  | look few => exact absurd few (Nat.not_lt.2 hall)
  | rest all => rfl
  | _ => cases hidling

theorem isInLoop_cases (h : Moves b seat c place log c' place') (hloop : place'.isInLoop = true) :
    place.isInLoop = true ∨ b.settings.syncIterations = true := by
  cases h with
  | leaveIdle sync => exact .inr sync
  | _ => first | exact .inl rfl | cases hloop

end Moves

end Lane

namespace Round

variable {b : Bench (StateM σ)} {length : IterationLength} {seats : List Seat} {world : σ}
  {schedule : List Nat} {i k : Nat}

/-! ### The count -/

theorem meeting_reached (world : σ) (schedule : List Nat) :
    ((ofSeats seats).reached b length world schedule).Meeting seats :=
  reached_induction meeting_ofSeats (fun _ h hmoves => meeting_move h hmoves) world schedule

/-- **The count is that of the lanes that have left**, in every reachable state. -/
theorem finished_eq (world : σ) (schedule : List Nat) :
    let r := (ofSeats seats).reached b length world schedule
    r.common.finished = r.lanes.countP fun lane => lane.place.hasLeft := by
  refine reached_induction (P := fun r => r.common.finished =
    r.lanes.countP fun lane => lane.place.hasLeft) ?_ (fun index h hmoves => ?_) world schedule
  · refine (List.countP_eq_zero.2 fun lane hlane => ?_).symm
    rw [entering_of_mem_ofSeats hlane]
    exact Bool.false_ne_true
  · cases hmoves with
    | nobody => exact h
    | @lane lane common place hfound hmove =>
      have hcount := countP_set_add hfound { lane with place } fun l => l.place.hasLeft
      have hfinished := hmove.finished_add
      dsimp only at hcount ⊢
      omega

/-- The step after the first `k` is one with which the lane leaves its measured part. -/
def Leaves (b : Bench (StateM σ)) (length : IterationLength) (r : Round) (world : σ)
    (schedule : List Nat) (i k : Nat) : Prop :=
  schedule[k]? = some i ∧
    (r.reached b length world (schedule.take k)).standsAt i Lane.Place.hasLeft = false ∧
    (r.reached b length world (schedule.take (k + 1))).standsAt i Lane.Place.hasLeft = true

theorem stays_hasLeft : Stays b Lane.Place.hasLeft := fun hmove h => hmove.hasLeft_mono h

theorem standsAt_ofSeats {p : Lane.Place → Bool} (hp : p .entering = false) :
    (ofSeats seats).standsAt i p = false := by
  cases hlane : (ofSeats seats).lanes[i]? with
  | none => rw [standsAt, hlane]; rfl
  | some lane =>
    rw [standsAt_of_getElem? hlane, entering_of_mem_ofSeats (List.mem_of_getElem? hlane), hp]

/-- A lane that has left its measured part has done so once. -/
theorem existsUnique_leaves
    (h : ((ofSeats seats).reached b length world schedule).standsAt i Lane.Place.hasLeft = true) :
    ∃! k, (ofSeats seats).Leaves b length world schedule i k := by
  let f (k : Nat) : Bool :=
    ((ofSeats seats).reached b length world (schedule.take k)).standsAt i Lane.Place.hasLeft
  have hfirst : f 0 = false := standsAt_ofSeats rfl
  have hlast : f schedule.length = true := by
    dsimp only [f]
    rwa [List.take_length]
  obtain ⟨k, ⟨hbefore, hafter⟩, hunique⟩ :=
    existsUnique_crossing (reached_standsAt_mono stays_hasLeft world schedule) hfirst hlast
  refine ⟨k, ⟨(reached_comes world schedule hbefore hafter).1, hbefore, hafter⟩, ?_⟩
  exact fun k' hk' => hunique k' hk'.2

/-- Who leaves adds one to the count. -/
theorem finished_of_leaves {r : Round} (h : r.Leaves b length world schedule i k) :
    (r.reached b length world (schedule.take (k + 1))).common.finished =
      (r.reached b length world (schedule.take k)).common.finished + 1 := by
  obtain ⟨-, hbefore, hafter⟩ := h
  obtain ⟨-, lane, log, common, place, -, hmove, hcommon, hplace, hplace'⟩ :=
    reached_comes world schedule hbefore hafter
  have hfinished := hmove.finished_add
  rw [hplace, hplace'] at hfinished
  rw [hcommon]
  exact hfinished

/-- Nobody else does. -/
theorem finished_of_not_leaves {r : Round} (h : ∀ i, ¬ r.Leaves b length world schedule i k) :
    (r.reached b length world (schedule.take (k + 1))).common.finished =
      (r.reached b length world (schedule.take k)).common.finished := by
  rcases reached_take_succ b length r world schedule k with
    ⟨index, log, hindex, hmoves⟩ | ⟨-, hsame⟩
  · have hstays : ¬ ((r.reached b length world (schedule.take k)).standsAt index
          Lane.Place.hasLeft = false ∧
        (r.reached b length world (schedule.take (k + 1))).standsAt index
          Lane.Place.hasLeft = true) := fun hleaves => h index ⟨hindex, hleaves⟩
    generalize r.reached b length world (schedule.take k) = before at *
    generalize r.reached b length world (schedule.take (k + 1)) = after at *
    cases hmoves with
    | nobody => rfl
    | @lane lane common place hfound hmove =>
      rw [standsAt_of_getElem? hfound, standsAt_set_self hfound] at hstays
      have hfinished := hmove.finished_add
      -- the lane had left before this step, or it has not left with it
      cases hbefore : lane.place.hasLeft with
      | true =>
        rw [hbefore, hmove.hasLeft_mono hbefore] at hfinished
        exact Nat.add_right_cancel hfinished
      | false =>
        have hafter : place.hasLeft = false :=
          eq_false_of_ne_true fun hleft => hstays ⟨hbefore, hleft⟩
        rw [hbefore, hafter] at hfinished
        exact hfinished
  · rw [hsame]

/-! ### Idle invocations -/

theorem failed_append (r : Round) (world : σ) (earlier later : List Nat)
    (h : (r.reached b length world (earlier ++ later)).common.failed = false) :
    (r.reached b length world earlier).common.failed = false := by
  refine eq_false_of_ne_true fun hup => ?_
  have hlater := reached_append (P := fun r => r.common.failed = true)
    (fun index hup hmoves => ?_) world earlier later hup
  · rw [h] at hlater
    cases hlater
  · cases hmoves with
    | nobody => exact hup
    | lane hfound hmove => exact hmove.failed_mono hup

theorem all_hasLeft_append (r : Round) (world : σ) (earlier later : List Nat)
    (h : ∀ lane ∈ (r.reached b length world earlier).lanes, lane.place.hasLeft = true) :
    ∀ lane ∈ (r.reached b length world (earlier ++ later)).lanes, lane.place.hasLeft = true := by
  refine reached_append (P := fun r => ∀ lane ∈ r.lanes, lane.place.hasLeft = true)
    (fun index hall hmoves => ?_) world earlier later h
  cases hmoves with
  | nobody => exact hall
  | lane hfound hmove =>
    exact forall_mem_set (hmove.hasLeft_mono (hall _ (List.mem_of_getElem? hfound))) hall

/-- A lane that looks at the flag has seen with its last step that some had not left. -/
theorem looking_since {r : Round}
    (h : (r.reached b length world schedule).standsAt i Lane.Place.isLooking = true)
    (hbegin : r.standsAt i Lane.Place.isLooking = false) :
    ∃ earlier later, schedule = earlier ++ i :: later ∧ later.count i = 0 ∧
      (r.reached b length world earlier).standsAt i Lane.Place.isIdling = true ∧
      (r.reached b length world earlier).common.finished <
        (r.reached b length world earlier).common.total := by
  induction schedule using List.reverseRecOn with
  | nil =>
    rw [reached_nil, hbegin] at h
    cases h
  | append_singleton former index ih =>
    obtain ⟨log, hmoves⟩ := reached_snoc b length r world former index
    rcases hmoves.standsAt_cases h with ⟨rfl, lane, common, place, hfound, hmove, -, hplace⟩ |
      ⟨hne, hstood⟩
    · obtain ⟨hidling, hfew⟩ := hmove.isLooking_cases hplace
      refine ⟨former, [], rfl, rfl, ?_, hfew⟩
      rwa [standsAt_of_getElem? hfound]
    · -- the step of another lane changes nothing about this one
      obtain ⟨earlier, later, rfl, hcount, hidling, hfew⟩ := ih hstood
      refine ⟨earlier, later ++ [index], by simp, ?_, hidling, hfew⟩
      simp [hcount, hne]

/-- **Before an idle invocation** a lane has seen, with its last step but one, that some had not
left; and the flag was down then and with its last step. -/
theorem spinning_since {r : Round}
    (h : (r.reached b length world schedule).standsAt i Lane.Place.isSpinning = true)
    (hbegin : r.standsAt i Lane.Place.isSpinning = false)
    (hbegin' : r.standsAt i Lane.Place.isLooking = false) :
    ∃ earlier later, schedule = earlier ++ i :: later ∧ later.count i = 1 ∧
      (r.reached b length world earlier).standsAt i Lane.Place.isIdling = true ∧
      (r.reached b length world earlier).common.failed = false ∧
      (r.reached b length world earlier).common.finished <
        (r.reached b length world earlier).common.total := by
  induction schedule using List.reverseRecOn with
  | nil =>
    rw [reached_nil, hbegin] at h
    cases h
  | append_singleton former index ih =>
    obtain ⟨log, hmoves⟩ := reached_snoc b length r world former index
    rcases hmoves.standsAt_cases h with ⟨rfl, lane, common, place, hfound, hmove, -, hplace⟩ |
      ⟨hne, hstood⟩
    · -- the look at the flag is the last step, and that at the count comes before it
      obtain ⟨hlooking, hdown⟩ := hmove.isSpinning_cases hplace
      have hstood := standsAt_of_getElem? (p := Lane.Place.isLooking) hfound
      rw [hlooking] at hstood
      obtain ⟨earlier, later, rfl, hcount, hidling, hfew⟩ := looking_since hstood hbegin'
      refine ⟨earlier, later ++ [index], by simp, ?_, hidling, ?_, hfew⟩
      · simp [hcount]
      · exact failed_append r world earlier _ hdown
    · obtain ⟨earlier, later, rfl, hcount, hrest⟩ := ih hstood
      refine ⟨earlier, later ++ [index], by simp, ?_, hrest⟩
      simp [hcount, hne]

theorem sync_of_isInLoop (world : σ) (schedule : List Nat) :
    ∀ lane ∈ ((ofSeats seats).reached b length world schedule).lanes,
      lane.place.isInLoop = true → b.settings.syncIterations = true := by
  refine reached_induction (P := fun r => ∀ lane ∈ r.lanes, lane.place.isInLoop = true →
    b.settings.syncIterations = true) ?_ (fun index h hmoves => ?_) world schedule
  · intro lane hlane hloop
    rw [entering_of_mem_ofSeats hlane] at hloop
    cases hloop
  · cases hmoves with
    | nobody => exact h
    | @lane lane common place hfound hmove =>
      refine forall_mem_set (fun hloop => ?_) h
      rcases hmove.isInLoop_cases hloop with hbefore | hsync
      · exact h lane (List.mem_of_getElem? hfound) hbefore
      · exact hsync

/-- Where fewer have been counted than there are, some lane has not left. -/
theorem exists_of_finished_lt
    (h : ((ofSeats seats).reached b length world schedule).common.finished <
      ((ofSeats seats).reached b length world schedule).common.total) :
    ∃ lane ∈ ((ofSeats seats).reached b length world schedule).lanes,
      lane.place.hasLeft = false := by
  -- a count as high as the number of lanes would count all of them
  rw [finished_eq, (meeting_reached world schedule).total] at h
  by_contra hall
  refine absurd (List.countP_eq_length.2 fun lane hlane => ?_) (Nat.ne_of_lt h)
  exact eq_true_of_ne_false fun hleft => hall ⟨lane, hlane, hleft⟩

theorem total_le_of_all
    (h : ∀ lane ∈ ((ofSeats seats).reached b length world schedule).lanes,
      lane.place.hasLeft = true) :
    ((ofSeats seats).reached b length world schedule).common.total ≤
      ((ofSeats seats).reached b length world schedule).common.finished := by
  rw [finished_eq, (meeting_reached world schedule).total]
  exact Nat.le_of_eq (List.countP_eq_length.2 h).symm

/-- The calls that a lane makes with its next step, whatever the world has come to. -/
def CallsNext (b : Bench (StateM σ)) (length : IterationLength) (r : Round) (i : Nat) (c : Call) :
    Prop :=
  ∃ world, ∃ x ∈ ((r.step b.watched length i).run world).log, x.call = c

/-- A lane that invokes after its measured part does so idly. -/
theorem isSpinning_of_callsNext {r : Round} {c : Call}
    (hleft : r.standsAt i Lane.Place.hasLeft = true) (hcalls : r.CallsNext b length i c)
    (hturn : c.isTurn = true) : r.standsAt i Lane.Place.isSpinning = true := by
  obtain ⟨world, x, hx, rfl⟩ := hcalls
  have hmoves : r.Moves b i ((r.step b.watched length i).run world).log
      ((r.step b.watched length i).run world).answer := moves_step i world
  obtain ⟨lane, common, place, hmove, hplace, -⟩ := hmoves.of_standsAt hleft
  rw [hplace] at hleft ⊢
  exact Lane.Place.isSpinning_of_isAtWork hleft (hmove.isAtWork_of_isTurn hx hturn)

theorem isClosing_of_all {r : Round} (world : σ)
    (hall : (r.reached b length world schedule).common.total ≤
      (r.reached b length world schedule).common.finished)
    (hidling : (r.reached b length world schedule).standsAt i Lane.Place.isIdling = true) :
    (r.reached b length world (schedule ++ [i])).standsAt i Lane.Place.isClosing = true := by
  obtain ⟨log, hmoves⟩ := reached_snoc b length r world schedule i
  obtain ⟨lane, common, place, hmove, hplace, hplace'⟩ := hmoves.of_standsAt hidling
  rw [hplace] at hidling
  rw [hplace']
  exact hmove.isClosing_of_all hidling hall

/-! ### What is promised -/

/-- What is promised of the count and of idle invocations in the state that a round has come to when
its lanes have moved in this order. -/
structure Synchronised (b : Bench (StateM σ)) (length : IterationLength) (seats : List Seat)
    (world : σ) (schedule : List Nat) : Prop where
  /-- The lanes wait for as many as there are threads. -/
  total : ((ofSeats seats).reached b length world schedule).common.total = seats.length
  /-- Those that have left their measured part are counted. -/
  counted : ((ofSeats seats).reached b length world schedule).common.finished =
    ((ofSeats seats).reached b length world schedule).lanes.countP fun lane => lane.place.hasLeft
  /-- There are never too many. -/
  bounded : ((ofSeats seats).reached b length world schedule).common.finished ≤ seats.length
  /-- A lane that has left has done so with exactly one step. -/
  once : ∀ i, ((ofSeats seats).reached b length world schedule).standsAt i Lane.Place.hasLeft =
    true → ∃! k, (ofSeats seats).Leaves b length world schedule i k
  /-- With that step it adds one. -/
  adds : ∀ i k, (ofSeats seats).Leaves b length world schedule i k →
    ((ofSeats seats).reached b length world (schedule.take (k + 1))).common.finished =
      ((ofSeats seats).reached b length world (schedule.take k)).common.finished + 1
  /-- With all other steps nobody adds anything. -/
  keeps : ∀ k, (∀ i, ¬ (ofSeats seats).Leaves b length world schedule i k) →
    ((ofSeats seats).reached b length world (schedule.take (k + 1))).common.finished =
      ((ofSeats seats).reached b length world (schedule.take k)).common.finished
  /-- A lane that has left and is about to invoke has been told to wait for the others; and with its
  last step but one, at which the flag was down, it has looked at the count, and some lane had not
  left then. -/
  idles : ∀ i call, ((ofSeats seats).reached b length world schedule).standsAt i
      Lane.Place.hasLeft = true →
    ((ofSeats seats).reached b length world schedule).CallsNext b length i call →
    call.isTurn = true → b.settings.syncIterations = true ∧
      ∃ earlier later, schedule = earlier ++ i :: later ∧ later.count i = 1 ∧
        ((ofSeats seats).reached b length world earlier).standsAt i Lane.Place.isIdling = true ∧
        ((ofSeats seats).reached b length world earlier).common.failed = false ∧
        ∃ lane ∈ ((ofSeats seats).reached b length world earlier).lanes,
          lane.place.hasLeft = false
  /-- After the last lane has left, whoever looks at the count is done with invoking. -/
  stops : ∀ earlier later, schedule = earlier ++ later →
    (∀ lane ∈ ((ofSeats seats).reached b length world earlier).lanes, lane.place.hasLeft = true) →
    ∀ i, ((ofSeats seats).reached b length world schedule).standsAt i Lane.Place.isIdling = true →
      ((ofSeats seats).reached b length world (schedule ++ [i])).standsAt i
        Lane.Place.isClosing = true

/-- What is promised holds of all orders. -/
theorem synchronised (seats : List Seat) (world : σ) (schedule : List Nat) :
    Synchronised b length seats world schedule := by
  have hmeeting : ((ofSeats seats).reached b length world schedule).Meeting seats :=
    meeting_reached world schedule
  have hlanes : ((ofSeats seats).reached b length world schedule).lanes.length = seats.length := by
    have hseats := congrArg List.length hmeeting.seats_eq
    rwa [List.length_map] at hseats
  constructor
  case total => rw [hmeeting.total, hlanes]
  case counted => exact finished_eq world schedule
  case bounded =>
    rw [finished_eq, ← hlanes]
    exact List.countP_le_length
  case once => exact fun i => existsUnique_leaves
  case adds => exact fun i k => finished_of_leaves
  case keeps => exact fun k => finished_of_not_leaves
  case idles =>
    intro i call hleft hcalls hturn
    have hspinning := isSpinning_of_callsNext hleft hcalls hturn
    refine ⟨?_, ?_⟩
    · cases hlane : ((ofSeats seats).reached b length world schedule).lanes[i]? with
      | none =>
        rw [standsAt, hlane] at hspinning
        cases hspinning
      | some lane =>
        rw [standsAt_of_getElem? hlane] at hspinning
        exact sync_of_isInLoop world schedule lane (List.mem_of_getElem? hlane)
          (Lane.Place.isInLoop_of_isSpinning hspinning)
    · obtain ⟨earlier, later, hsplit, hcount, hidling, hdown, hfew⟩ :=
        spinning_since hspinning (standsAt_ofSeats rfl) (standsAt_ofSeats rfl)
      exact ⟨earlier, later, hsplit, hcount, hidling, hdown, exists_of_finished_lt hfew⟩
  case stops =>
    rintro earlier later rfl hall i hidling
    exact isClosing_of_all world (total_le_of_all (all_hasLeft_append _ world earlier later hall))
      hidling

/-- **Idle invocations do not outlive the measurement.**  A round is run in one of the orders in
which its lanes can move.  In whatever order they do, and however each of them fares: the count is
that of the lanes that have left their measured part, each of which has added one; a lane only
invokes idly after it has seen, with the flag down, that some lane had not left; and after the last
one has left nobody who looks invokes again. -/
theorem run_synchronised (b : Bench (StateM σ)) (length : IterationLength) (seats : List Seat)
    (world : σ) :
    (∀ patience, ∃ schedule, (run b length patience seats).run.run world =
      (runAlong b length seats schedule).run.run world) ∧
    ∀ schedule, Synchronised b length seats world schedule :=
  ⟨fun patience => exists_runAlong b length patience seats world, synchronised seats world⟩

/-- Two threads that wait for each other. -/
def pair : Conductor (StateM Nat) := Conductor.rehearsed [⟨"a", 2⟩] fun _ => false

/-- The first thread has measured before the second one has passed the barrier, and invokes idly;
when the second one has measured too, it is done. -/
theorem run_synchronised_pair :
    let ahead := [0, 0, 1, 1, 0, 0, 0, 0, 0, 0]
    let reached := (ofSeats (pair.activeSeats 0)).reached pair.toBench (.invocations 2) 0
    (reached ahead).standsAt 0 Lane.Place.isSpinning = true ∧
    (∃ earlier later, ahead = earlier ++ 0 :: later ∧ later.count 0 = 1 ∧
      (reached earlier).common.failed = false ∧
      ∃ lane ∈ (reached earlier).lanes, lane.place.hasLeft = false) ∧
    (reached (ahead ++ [1, 1, 1, 1, 0] ++ [0])).standsAt 0 Lane.Place.isClosing = true := by
  intro ahead reached
  have hordered := (run_synchronised pair.toBench (.invocations 2) (pair.activeSeats 0) 0).2
  have hspinning : (reached ahead).standsAt 0 Lane.Place.isSpinning = true := by decide +kernel
  have hleft : (reached ahead).standsAt 0 Lane.Place.hasLeft = true := by decide +kernel
  have hcalls : (reached ahead).CallsNext pair.toBench (.invocations 2) 0
      (.invoke ⟨0, 2, 0, "a", 0, 2⟩) := ⟨0, by decide +kernel⟩
  have hall : ∀ lane ∈ (reached (ahead ++ [1, 1, 1, 1])).lanes, lane.place.hasLeft = true := by
    decide +kernel
  have hidling : (reached (ahead ++ [1, 1, 1, 1, 0])).standsAt 0 Lane.Place.isIdling = true := by
    decide +kernel
  have hsplit : ahead ++ [1, 1, 1, 1, 0] = ahead ++ [1, 1, 1, 1] ++ [0] := by decide
  obtain ⟨-, earlier, later, hahead, hcount, -, hdown, hfew⟩ :=
    (hordered ahead).idles 0 _ hleft hcalls rfl
  refine ⟨hspinning, ⟨earlier, later, hahead, hcount, hdown, hfew⟩, ?_⟩
  exact (hordered _).stops _ _ hsplit hall 0 hidling

end Round

end Microbench
