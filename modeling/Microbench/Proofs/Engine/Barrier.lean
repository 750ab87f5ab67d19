import Microbench.Proofs.Engine.Moves
import Microbench.Proofs.Engine.Nesting

/-!
# The start of an iteration

The threads of an iteration meet at a barrier between their setup and their first
invocation.  A setup that fails raises the flag before its thread comes to the barrier, and
every thread looks at the flag after it, so one failed setup keeps all threads from
invoking.  A thread whose setup has failed comes to the barrier like the others, and nobody
waits there in vain.

## Main definitions

* `Lane.Place.hasArrived`, `Lane.Place.isPast`, `Lane.Place.isAtWork` — how far a lane has come.
* `Round.Gathering` — what holds in every reachable state of a round.
* `Round.Arrives` — a step with which a lane comes to the barrier.
* `StartsTogether` — what is promised of the calls of an iteration and of its end.

## Main results

* `Round.gathering_move` — every move keeps what holds.
* `Round.existsUnique_arrives` — every thread comes to the barrier exactly once.
* `Conductor.runIteration_startsTogether` — **no thread invokes before all are set up, and none at
  all if a setup fails.**
-/

namespace Microbench

variable {σ : Type}

/-- An exchange of one part of a log or of the next, with what comes before it. -/
theorem split_append {log more former latter : List Exchange} {x : Exchange}
    (h : log ++ more = former ++ x :: latter) :
    (∃ latter', log = former ++ x :: latter') ∨
      ∃ former', former = log ++ former' ∧ more = former' ++ x :: latter := by
  rcases List.append_eq_append_iff.1 h with ⟨former', rfl, hmore⟩ | ⟨latter', hlog, hrest⟩
  · exact .inr ⟨former', rfl, hmore⟩
  · cases latter' with
    | nil => exact .inr ⟨[], by rw [hlog, List.append_nil, List.append_nil], hrest.symm⟩
    | cons y latter' =>
      obtain ⟨rfl, -⟩ := List.cons.inj hrest
      exact .inl ⟨latter', hlog⟩

namespace Lane

/-! ### How far a lane has come -/

/-- The iteration setup is over, well or not. -/
def Place.hasEntered : Place → Bool
  | entering => false
  | _ => true

/-- The lane has come to the barrier. -/
def Place.hasArrived : Place → Bool
  | entering | alarming _ | arriving _ => false
  | _ => true

/-- The barrier has let the lane go. -/
def Place.isPast : Place → Bool
  | entering | alarming _ | arriving _ | waiting _ => false
  | _ => true

/-- The setup has failed and the flag is not up yet. -/
def Place.isAlarming : Place → Bool
  | alarming _ => true
  | _ => false

/-- The next thing that the lane asks of the task is an invocation. -/
def Place.isAtWork : Place → Bool
  | starting | measuring .. | batching .. | spinning _ => true
  | _ => false

/-- The lane has failed, and it ends with a failure if it ends. -/
def Place.isSpoilt : Place → Bool
  | alarming _ | arriving (some _) | waiting (some _) | refused _ | ended (.error _) => true
  | _ => false

theorem Place.isPast_of_isAtWork {place : Place} (h : place.isAtWork = true) :
    place.isPast = true := by
  cases place <;> first | rfl | cases h

theorem Place.hasEntered_of_hasArrived {place : Place} (h : place.hasArrived = true) :
    place.hasEntered = true := by
  cases place <;> first | rfl | cases h

theorem Place.isAlarming_of_hasArrived {place : Place} (h : place.hasArrived = true) :
    place.isAlarming = false := by
  cases place <;> first | rfl | cases h

theorem Place.isSpoilt_of_isAlarming {place : Place} (h : place.isAlarming = true) :
    place.isSpoilt = true := by
  cases place <;> first | rfl | cases h

/-- How many steps towards the barrier a lane has taken. -/
def Place.progress : Place → Nat
  | entering => 0
  | alarming _ => 1
  | arriving _ => 2
  | _ => 3

theorem Place.hasArrived_of_progress {place : Place} (h : 3 ≤ place.progress) :
    place.hasArrived = true := by
  cases place <;> first | rfl | (simp [progress] at h)

/-- The lane stands before the barrier. -/
def Place.isArriving : Place → Bool
  | arriving _ => true
  | _ => false

/-! ### What a move does to it -/

namespace Moves

variable {m : Type → Type} {b : Bench m} {seat : Seat} {c c' : Common} {place place' : Place}
  {log : List Exchange}

theorem total_eq (h : Moves b seat c place log c' place') : c'.total = c.total := by
  cases h <;> rfl

theorem arrived_add (h : Moves b seat c place log c' place') :
    c'.arrived + (if place.hasArrived then 1 else 0) =
      c.arrived + (if place'.hasArrived then 1 else 0) := by
  cases h <;> rfl

theorem failed_mono (h : Moves b seat c place log c' place') (hup : c.failed = true) :
    c'.failed = true := by
  cases h <;> first | rfl | exact hup

theorem hasArrived_mono (h : Moves b seat c place log c' place')
    (harrived : place.hasArrived = true) : place'.hasArrived = true := by
  cases h <;> first | rfl | cases harrived

/-- Nothing keeps a lane from the barrier. -/
theorem progress_le (h : Moves b seat c place log c' place') :
    min 3 (place.progress + 1) ≤ place'.progress := by
  cases h <;> simp [Place.progress]

/-- A lane comes to the barrier with the step that it takes before it, and with no other. -/
theorem isArriving_iff (h : Moves b seat c place log c' place') :
    place.isArriving = true ↔ place.hasArrived = false ∧ place'.hasArrived = true := by
  cases h <;> simp [Place.isArriving, Place.hasArrived]

theorem isSpoilt_mono (h : Moves b seat c place log c' place') (hspoilt : place.isSpoilt = true) :
    place'.isSpoilt = true := by
  cases h with
  | @arrive refusal =>
    cases refusal with
    | none => cases hspoilt
    | some e => rfl
  | _ => first | rfl | cases hspoilt | exact hspoilt

/-- The barrier only lets a lane go when all have come. -/
theorem isPast_cases (h : Moves b seat c place log c' place') (hpast : place'.isPast = true) :
    place.isPast = true ∨ c.total ≤ c.arrived := by
  cases h with
  | pass all => exact .inr all
  | passRefused all => exact .inr all
  | _ => first | exact .inl rfl | cases hpast

/-- A lane only goes to work after it has seen the flag down. -/
theorem isAtWork_cases (h : Moves b seat c place log c' place') (hwork : place'.isAtWork = true) :
    place.isAtWork = true ∨ place.isPast = true ∧ c.failed = false := by
  cases h with
  | start down => exact .inr ⟨rfl, down⟩
  | spin down => exact .inr ⟨rfl, down⟩
  | _ => first | exact .inl rfl | cases hwork

/-- Only a lane at work invokes. -/
theorem isAtWork_of_isTurn (h : Moves b seat c place log c' place') {x : Exchange} (hx : x ∈ log)
    (hturn : x.call.isTurn = true) : place.isAtWork = true := by
  have hown (stage : Stage) (hasked : calls log = b.ownFixture stage seat) :
      place.isAtWork = true := by
    have hmem : x.call ∈ b.ownFixture stage seat := hasked ▸ List.mem_map_of_mem hx
    unfold Bench.ownFixture at hmem
    split at hmem
    · rw [List.mem_singleton.1 hmem] at hturn
      cases hturn
    · cases hmem
  -- outside of its work a lane asks at most for the fixtures of its own iteration state
  cases h with
  | enter asked good => exact hown .setup asked
  | balk asked => exact hown .setup asked
  | close asked => exact hown .teardown asked
  | breakClose asked => exact hown .teardown asked
  | _ => first | rfl | cases hx

/-- Only a lane that has not entered can fail to, and then it is about to raise the flag. -/
theorem alarming_of_isRefusal (h : Moves b seat c place log c' place') {x : Exchange}
    (hx : x ∈ log) (hrefusal : x.isRefusal = true) :
    place.hasEntered = false ∧ place'.isAlarming = true := by
  have hcall : ∃ seat, x.call = .fixture .setup .iteration (.thread seat) := by
    unfold Exchange.isRefusal at hrefusal
    split at hrefusal
    · exact ⟨_, by assumption⟩
    · cases hrefusal
  obtain ⟨seat', hcall⟩ := hcall
  have hturn (turns : ∀ x ∈ log, x.call.isTurn = true) :
      place.hasEntered = false ∧ place'.isAlarming = true := by
    have hx := turns x hx
    rw [hcall] at hx
    cases hx
  have hown (hasked : calls log = b.ownFixture .teardown seat) :
      place.hasEntered = false ∧ place'.isAlarming = true := by
    have hmem : x.call ∈ b.ownFixture .teardown seat := hasked ▸ List.mem_map_of_mem hx
    unfold Bench.ownFixture at hmem
    split at hmem
    · rw [hcall] at hmem
      cases List.mem_singleton.1 hmem
    · cases hmem
  cases h with
  | enter asked good =>
    rw [good x hx] at hrefusal
    cases hrefusal
  | balk asked => exact ⟨rfl, rfl⟩
  | close asked => exact hown asked
  | breakClose asked => exact hown asked
  | measure turns => exact hturn turns
  | breakOff turns => exact hturn turns
  | batch turns => exact hturn turns
  | breakBatch turns => exact hturn turns
  | spun turns => exact hturn turns
  | breakSpin turns => exact hturn turns
  | _ => cases hx

theorem failed_of_isAlarming (h : Moves b seat c place log c' place')
    (halarming : place.isAlarming = true) : c'.failed = true := by
  cases h <;> first | rfl | cases halarming

theorem asked_of_enters (h : Moves b seat c place log c' place')
    (hbefore : place.hasEntered = false) : calls log = b.ownFixture .setup seat := by
  cases h with
  | enter asked good => exact asked
  | balk asked => exact asked
  | _ => cases hbefore

end Moves

end Lane

namespace Round

/-! ### The barrier -/

/-- What holds of the lanes of a round in every reachable state. -/
structure Meeting (seats : List Seat) (r : Round) : Prop where
  /-- There is a lane for every thread. -/
  seats_eq : r.lanes.map Lane.seat = seats
  /-- All lanes are waited for. -/
  total : r.common.total = r.lanes.length
  /-- Those that have come to the barrier are counted. -/
  arrived : r.common.arrived = r.lanes.countP fun lane => lane.place.hasArrived
  /-- The barrier lets nobody go before all have come. -/
  together : ∀ lane ∈ r.lanes, lane.place.isPast = true →
    ∀ other ∈ r.lanes, other.place.hasArrived = true

section

variable {m : Type → Type} {b : Bench m} {seats : List Seat} {r r' : Round} {lane : Lane}
  {common : Common} {place : Lane.Place} {index : Nat} {log more : List Exchange}

theorem entering_of_mem_ofSeats {lane : Lane} (h : lane ∈ (ofSeats seats).lanes) :
    lane.place = .entering := by
  obtain ⟨seat, -, rfl⟩ := List.mem_map.1 h
  rfl

theorem meeting_ofSeats : (ofSeats seats).Meeting seats := by
  refine ⟨?_, ?_, ?_, fun lane hlane hpast => ?_⟩
  · simp [ofSeats, Function.comp_def]
  · simp [ofSeats]
  · refine (List.countP_eq_zero.2 fun lane hlane => ?_).symm
    rw [entering_of_mem_ofSeats hlane]
    exact Bool.false_ne_true
  · rw [entering_of_mem_ofSeats hlane] at hpast
    cases hpast

namespace Meeting

theorem all_of_arrived (h : r.Meeting seats) (hall : r.common.total ≤ r.common.arrived) :
    ∀ lane ∈ r.lanes, lane.place.hasArrived = true := by
  have hle : r.lanes.countP (fun lane => lane.place.hasArrived) ≤ r.lanes.length :=
    List.countP_le_length
  refine List.countP_eq_length.1 (Nat.le_antisymm hle ?_)
  rw [← h.total, ← h.arrived]
  exact hall

/-- Where a lane is past the barrier after its move, all have come before it. -/
theorem all_of_isPast (h : r.Meeting seats) (hfound : r.lanes[index]? = some lane)
    (hmove : Lane.Moves b lane.seat r.common lane.place more common place)
    (hpast : place.isPast = true) : ∀ other ∈ r.lanes, other.place.hasArrived = true := by
  rcases hmove.isPast_cases hpast with hbefore | hall
  · exact h.together lane (List.mem_of_getElem? hfound) hbefore
  · exact h.all_of_arrived hall

/-- Where a lane invokes all have come to the barrier. -/
theorem all_of_isTurn (h : r.Meeting seats) (hfound : r.lanes[index]? = some lane)
    (hmove : Lane.Moves b lane.seat r.common lane.place more common place) {x : Exchange}
    (hx : x ∈ more) (hturn : x.call.isTurn = true) :
    ∀ other ∈ r.lanes, other.place.hasArrived = true := by
  have hwork := hmove.isAtWork_of_isTurn hx hturn
  exact h.together lane (List.mem_of_getElem? hfound) (Lane.Place.isPast_of_isAtWork hwork)

end Meeting

theorem all_hasArrived_move (hfound : r.lanes[index]? = some lane)
    (hmove : Lane.Moves b lane.seat r.common lane.place more common place)
    (hall : ∀ other ∈ r.lanes, other.place.hasArrived = true) :
    ∀ other ∈ r.lanes.set index { lane with place }, other.place.hasArrived = true :=
  forall_mem_set (hmove.hasArrived_mono (hall lane (List.mem_of_getElem? hfound))) hall

theorem meeting_move (h : r.Meeting seats) (hmoves : r.Moves b index more r') :
    r'.Meeting seats := by
  cases hmoves with
  | nobody hnone hquiet => exact h
  | @lane lane common place hfound hmove =>
    constructor
    case seats_eq =>
      rw [List.map_set, ← h.seats_eq]
      exact set_of_getElem? (by rw [List.getElem?_map, hfound]; rfl)
    case total => rw [List.length_set, hmove.total_eq, h.total]
    case arrived =>
      -- the counter and the lanes that are counted change by the same amount
      have hcount := countP_set_add hfound { lane with place } fun l => l.place.hasArrived
      have harrived := hmove.arrived_add
      have hbefore := h.arrived
      dsimp only at hcount ⊢
      omega
    case together =>
      intro other hother hpast
      refine all_hasArrived_move hfound hmove ?_
      rcases List.mem_or_eq_of_mem_set hother with hmem | rfl
      · exact h.together other hmem hpast
      · exact h.all_of_isPast hfound hmove hpast

/-! ### Setups and invocations -/

/-- What holds of a round that has come to a state, when these are the exchanges that it has had. -/
structure Gathering (b : Bench m) (seats : List Seat) (r : Round) (log : List Exchange) : Prop
    extends r.Meeting seats where
  /-- A lane that has entered has made its iteration setup. -/
  setUp : ∀ lane ∈ r.lanes, lane.place.hasEntered = true →
    b.ownFixture .setup lane.seat ⊆ calls log
  /-- Nobody has invoked before all had come to the barrier. -/
  turned : ∀ x ∈ log, x.call.isTurn = true → ∀ lane ∈ r.lanes, lane.place.hasArrived = true
  /-- Nobody has invoked before all were set up. -/
  early : ∀ former x latter, log = former ++ x :: latter → x.call.isTurn = true →
    ∀ seat ∈ seats, b.ownFixture .setup seat ⊆ calls former
  /-- After a failed setup the flag is up or about to be raised. -/
  flagged : ∀ x ∈ log, x.isRefusal = true →
    r.common.failed = true ∨ ∃ lane ∈ r.lanes, lane.place.isAlarming = true
  /-- A failed setup spoils its lane. -/
  spoilt : ∀ x ∈ log, x.isRefusal = true → ∃ lane ∈ r.lanes, lane.place.isSpoilt = true
  /-- Where a lane is at work no setup has failed. -/
  sound : ∀ lane ∈ r.lanes, lane.place.isAtWork = true → ∀ x ∈ log, x.isRefusal = false
  /-- Where a thread has invoked no setup has failed. -/
  clean : ∀ x ∈ log, x.call.isTurn = true → ∀ y ∈ log, y.isRefusal = false

theorem gathering_ofSeats : (ofSeats seats).Gathering b seats [] := by
  have hlog {P : Exchange → Prop} : ∀ x ∈ ([] : List Exchange), P x := fun _ h => nomatch h
  refine ⟨meeting_ofSeats, fun lane hlane h => ?_, hlog, fun former x latter h => ?_, hlog, hlog,
    fun _ _ _ => hlog, hlog⟩
  · rw [entering_of_mem_ofSeats hlane] at h
    cases h
  · simp at h

namespace Gathering

/-- Where all are at the barrier and the flag is down no setup has failed. -/
theorem clean_of_down (h : r.Gathering b seats log) (hdown : r.common.failed = false)
    (hall : ∀ lane ∈ r.lanes, lane.place.hasArrived = true) :
    ∀ x ∈ log, x.isRefusal = false := by
  intro x hx
  refine eq_false_of_ne_true fun hrefusal => ?_
  rcases h.flagged x hx hrefusal with hup | ⟨lane, hlane, halarming⟩
  · rw [hdown] at hup
    cases hup
  · rw [Lane.Place.isAlarming_of_hasArrived (hall lane hlane)] at halarming
    cases halarming

theorem setUp_of_all (h : r.Gathering b seats log)
    (hall : ∀ lane ∈ r.lanes, lane.place.hasArrived = true) :
    ∀ seat ∈ seats, b.ownFixture .setup seat ⊆ calls log := by
  intro seat hseat
  obtain ⟨lane, hlane, rfl⟩ := List.mem_map.1 (h.seats_eq ▸ hseat)
  exact h.setUp lane hlane (Lane.Place.hasEntered_of_hasArrived (hall lane hlane))

end Gathering

/-- Where all are at the barrier no setup fails any more. -/
theorem quiet_of_all (hfound : r.lanes[index]? = some lane)
    (hmove : Lane.Moves b lane.seat r.common lane.place more common place)
    (hall : ∀ other ∈ r.lanes, other.place.hasArrived = true) :
    ∀ x ∈ more, x.isRefusal = false := by
  intro x hx
  refine eq_false_of_ne_true fun hrefusal => ?_
  have hentered := Lane.Place.hasEntered_of_hasArrived (hall lane (List.mem_of_getElem? hfound))
  rw [(hmove.alarming_of_isRefusal hx hrefusal).1] at hentered
  cases hentered

/-- **Every move keeps what holds.** -/
theorem gathering_move (index : Nat) (h : r.Gathering b seats log)
    (hmoves : r.Moves b index more r') : r'.Gathering b seats (log ++ more) := by
  have hmeeting := meeting_move h.toMeeting hmoves
  cases hmoves with
  | nobody hnone hquiet =>
    rw [hquiet, List.append_nil]
    exact h
  | @lane lane common place hfound hmove =>
    have hlane : lane ∈ r.lanes := List.mem_of_getElem? hfound
    have hself : { lane with place } ∈ r.lanes.set index { lane with place } :=
      mem_set_self_of_getElem? hfound
    have hearlier {seat : Seat} (hsetUp : b.ownFixture .setup seat ⊆ calls log) :
        b.ownFixture .setup seat ⊆ calls (log ++ more) := by
      rw [calls_append]
      exact fun call hcall => List.mem_append_left _ (hsetUp hcall)
    have hclean (hall : ∀ other ∈ r.lanes, other.place.hasArrived = true)
        (hlog : ∀ x ∈ log, x.isRefusal = false) : ∀ x ∈ log ++ more, x.isRefusal = false :=
      List.forall_mem_append.2 ⟨hlog, quiet_of_all hfound hmove hall⟩
    constructor
    case toMeeting => exact hmeeting
    case setUp =>
      refine forall_mem_set (fun hentered => ?_) fun other hmem hentered => ?_
      · cases hbefore : lane.place.hasEntered with
        | true => exact hearlier (h.setUp lane hlane hbefore)
        | false =>
          rw [calls_append, ← hmove.asked_of_enters hbefore]
          exact List.subset_append_right _ _
      · exact hearlier (h.setUp other hmem hentered)
    case turned =>
      intro x hx hturn
      refine all_hasArrived_move hfound hmove ?_
      rcases List.mem_append.1 hx with hlog | hmore
      · exact h.turned x hlog hturn
      · exact h.all_of_isTurn hfound hmove hmore hturn
    case early =>
      intro former x latter hsplit hturn
      rcases split_append hsplit with ⟨latter', hlog⟩ | ⟨former', rfl, hmore⟩
      · exact h.early former x latter' hlog hturn
      · -- an invocation of this move comes after all that was there
        have hmem : x ∈ more := hmore ▸ List.mem_append_right _ List.mem_cons_self
        have hall := h.all_of_isTurn hfound hmove hmem hturn
        intro seat hseat
        rw [calls_append]
        exact fun call hcall => List.mem_append_left _ (h.setUp_of_all hall seat hseat hcall)
    case flagged =>
      intro x hx hrefusal
      rcases List.mem_append.1 hx with hlog | hmore
      · rcases h.flagged x hlog hrefusal with hup | ⟨other, hother, halarming⟩
        · exact .inl (hmove.failed_mono hup)
        · -- the lane that was about to raise the flag has now done so, or it has not moved
          rcases eq_or_mem_set hfound hother with rfl | hstill
          · exact .inl (hmove.failed_of_isAlarming halarming)
          · exact .inr ⟨other, hstill, halarming⟩
      · exact .inr ⟨_, hself, (hmove.alarming_of_isRefusal hmore hrefusal).2⟩
    case spoilt =>
      intro x hx hrefusal
      rcases List.mem_append.1 hx with hlog | hmore
      · obtain ⟨other, hother, hspoilt⟩ := h.spoilt x hlog hrefusal
        rcases eq_or_mem_set hfound hother with rfl | hstill
        · exact ⟨_, hself, hmove.isSpoilt_mono hspoilt⟩
        · exact ⟨other, hstill, hspoilt⟩
      · have halarming := (hmove.alarming_of_isRefusal hmore hrefusal).2
        exact ⟨_, hself, Lane.Place.isSpoilt_of_isAlarming halarming⟩
    case sound =>
      -- whoever is at work has seen the flag down when all were at the barrier
      refine forall_mem_set (fun hwork => ?_) fun other hmem hwork => ?_
      · have hall := h.all_of_isPast hfound hmove (Lane.Place.isPast_of_isAtWork hwork)
        rcases hmove.isAtWork_cases hwork with hbefore | ⟨-, hdown⟩
        · exact hclean hall (h.sound lane hlane hbefore)
        · exact hclean hall (h.clean_of_down hdown hall)
      · have hall := h.together other hmem (Lane.Place.isPast_of_isAtWork hwork)
        exact hclean hall (h.sound other hmem hwork)
    case clean =>
      intro x hx hturn
      rcases List.mem_append.1 hx with hlog | hmore
      · exact hclean (h.turned x hlog hturn) (h.clean x hlog hturn)
      · have hwork := hmove.isAtWork_of_isTurn hmore hturn
        exact hclean (h.all_of_isTurn hfound hmove hmore hturn) (h.sound lane hlane hwork)

end

/-! ### Coming to the barrier -/

section

variable {b : Bench (StateM σ)} {length : IterationLength} {seats : List Seat} {i : Nat}

/-- The step after the first `k` is one with which the lane comes to the barrier. -/
def Arrives (b : Bench (StateM σ)) (length : IterationLength) (r : Round) (world : σ)
    (schedule : List Nat) (i k : Nat) : Prop :=
  schedule[k]? = some i ∧
    (r.reached b length world (schedule.take k)).standsAt i Lane.Place.isArriving = true

theorem stays_hasArrived : Stays b Lane.Place.hasArrived := fun hmove h => hmove.hasArrived_mono h

/-- With such a step the lane comes to where it has arrived. -/
theorem arrives_iff {r : Round} {world : σ} {schedule : List Nat} {k : Nat} :
    r.Arrives b length world schedule i k ↔
      (r.reached b length world (schedule.take k)).standsAt i Lane.Place.hasArrived = false ∧
      (r.reached b length world (schedule.take (k + 1))).standsAt i Lane.Place.hasArrived =
        true := by
  constructor
  · rintro ⟨hstep, harriving⟩
    rcases reached_take_succ b length r world schedule k with
      ⟨index, log, hindex, hmoves⟩ | ⟨hnone, -⟩
    · obtain rfl := Option.some.inj (hstep.symm.trans hindex)
      obtain ⟨lane, common, place, hmove, hplace, hplace'⟩ := hmoves.of_standsAt harriving
      rw [hplace] at harriving ⊢
      rw [hplace']
      exact hmove.isArriving_iff.1 harriving
    · rw [hnone] at hstep
      cases hstep
  · rintro ⟨hbefore, hafter⟩
    obtain ⟨hstep, lane, log, common, place, hfound, hmove, -, hplace, hplace'⟩ :=
      reached_comes world schedule hbefore hafter
    refine ⟨hstep, ?_⟩
    rw [standsAt_of_getElem? hfound]
    exact hmove.isArriving_iff.2 ⟨hplace, hplace'⟩

/-- Every step of a lane brings it nearer to the barrier, whatever the other lanes do. -/
theorem progress_reached (b : Bench (StateM σ)) (length : IterationLength) (hi : i < seats.length)
    (world : σ) (schedule : List Nat) :
    ∃ lane, ((ofSeats seats).reached b length world schedule).lanes[i]? = some lane ∧
      min 3 (schedule.count i) ≤ lane.place.progress := by
  induction schedule using List.reverseRecOn with
  | nil => exact ⟨⟨seats[i], .entering⟩, by simp [ofSeats, hi], by simp⟩
  | append_singleton former index ih =>
    obtain ⟨lane, hlane, hprogress⟩ := ih
    obtain ⟨log, hmoves⟩ := reached_snoc b length (ofSeats seats) world
      former index
    generalize (ofSeats seats).reached b length world former = before at *
    generalize (ofSeats seats).reached b length world (former ++ [index]) = after at *
    by_cases hindex : index = i
    · subst hindex
      have hcount : (former ++ [index]).count index = former.count index + 1 := by simp
      cases hmoves with
      | nobody hnone =>
        rw [hlane] at hnone
        cases hnone
      | @lane lane' common place hfound hmove =>
        obtain rfl := Option.some.inj (hlane.symm.trans hfound)
        refine ⟨_, List.getElem?_set_self (List.getElem?_eq_some_iff.1 hfound).1, ?_⟩
        have hstep := hmove.progress_le
        dsimp only
        omega
    · have hcount : (former ++ [index]).count i = former.count i := by simp [hindex]
      refine ⟨lane, ?_, by rwa [hcount]⟩
      cases hmoves with
      | nobody => exact hlane
      | lane hfound hmove => rwa [List.getElem?_set_ne hindex]

/-- **Every thread comes to the barrier exactly once**, whatever its setup has done: never twice,
and within its first three steps. -/
theorem existsUnique_arrives (hi : i < seats.length) (world : σ) (schedule : List Nat) :
    (∀ k k', (ofSeats seats).Arrives b length world schedule i k →
      (ofSeats seats).Arrives b length world schedule i k' → k = k') ∧
    (3 ≤ schedule.count i → ∃! k, (ofSeats seats).Arrives b length world schedule i k) := by
  let f (k : Nat) : Bool := ((ofSeats seats).reached b length world (schedule.take k)).standsAt i
    Lane.Place.hasArrived
  have hmono : ∀ k, f k = true → f (k + 1) = true :=
    reached_standsAt_mono stays_hasArrived world schedule
  have hfirst : f 0 = false := by
    have hlane : (ofSeats seats).lanes[i]? = some ⟨seats[i], .entering⟩ := by simp [ofSeats, hi]
    exact standsAt_of_getElem? hlane
  -- the barrier is never left backwards, so it is crossed once if it is crossed at all
  refine ⟨fun k k' hk hk' => ?_, fun hcount => ?_⟩
  · have hk := arrives_iff.1 hk
    have hk' := arrives_iff.1 hk'
    exact (existsUnique_crossing hmono hfirst hk.2).unique hk hk'
  · obtain ⟨lane, hlane, hprogress⟩ := progress_reached b length hi world schedule
    have hlast : f schedule.length = true := by
      have hwhole := standsAt_of_getElem? (p := Lane.Place.hasArrived) hlane
      rw [Lane.Place.hasArrived_of_progress (by omega)] at hwhole
      dsimp only [f]
      rwa [List.take_length]
    obtain ⟨k, hk, hunique⟩ := existsUnique_crossing hmono hfirst hlast
    exact ⟨k, arrives_iff.2 hk, fun k' hk' => hunique k' (arrives_iff.1 hk')⟩

end

end Round

/-! ### Iterations -/

/-- What is promised of the calls of an iteration and of its end. -/
structure StartsTogether {m : Type → Type} {α : Type} (b : Bench m) (seats : List Seat)
    (r : Except Failure α) (log : List Exchange) : Prop where
  /-- Before an invocation, and before a fixture around one, all threads have been set up. -/
  early : ∀ former x latter, log = former ++ x :: latter → x.call.isTurn = true →
    ∀ seat ∈ seats, b.ownFixture .setup seat ⊆ calls former
  /-- Where a setup has failed nobody invokes. -/
  silent : ∀ x ∈ log, x.isRefusal = true → ∀ y ∈ log, y.call.isTurn = false
  /-- Where a setup has failed there is no result. -/
  fails : ∀ x ∈ log, x.isRefusal = true → ∃ f, r = .error f

/-- What the controlling thread does by itself: no invocations and no setups of threads. -/
def Exchange.isApart (x : Exchange) : Prop := x.call.isTurn = false ∧ x.isRefusal = false

namespace StartsTogether

variable {m : Type → Type} {α β : Type} {b : Bench m} {seats : List Seat} {r : Except Failure α}
  {log more : List Exchange}

theorem of_apart (h : ∀ x ∈ log, x.isApart) : StartsTogether b seats r log := by
  have hrefusal {P : Prop} {x : Exchange} (hx : x ∈ log) (hrefusal : x.isRefusal = true) : P := by
    rw [(h x hx).2] at hrefusal
    cases hrefusal
  refine ⟨fun former x latter hsplit hturn => ?_, fun x hx => hrefusal hx, fun x hx => hrefusal hx⟩
  rw [(h x (hsplit ▸ List.mem_append_right _ List.mem_cons_self)).1] at hturn
  cases hturn

/-- What the controlling thread does before comes to nothing. -/
theorem prepend (h : StartsTogether b seats r more) (hlog : ∀ x ∈ log, x.isApart) :
    StartsTogether b seats r (log ++ more) := by
  have hmore {x : Exchange} (hx : x ∈ log ++ more) (hrefusal : x.isRefusal = true) : x ∈ more := by
    refine (List.mem_append.1 hx).resolve_left fun hx => ?_
    rw [(hlog x hx).2] at hrefusal
    cases hrefusal
  refine ⟨fun former x latter hsplit hturn seat hseat => ?_, fun x hx hrefusal => ?_,
    fun x hx hrefusal => h.fails x (hmore hx hrefusal) hrefusal⟩
  · rcases split_append hsplit with ⟨latter', hfirst⟩ | ⟨former', rfl, hsecond⟩
    · rw [(hlog x (hfirst ▸ List.mem_append_right _ List.mem_cons_self)).1] at hturn
      cases hturn
    · rw [calls_append]
      exact fun call hcall => List.mem_append_right _ (h.early _ _ _ hsecond hturn seat hseat hcall)
  · have hsilent := h.silent x (hmore hx hrefusal) hrefusal
    exact List.forall_mem_append.2 ⟨fun y hy => (hlog y hy).1, hsilent⟩

/-- What it does after a round with a result comes to nothing either. -/
theorem append {a : α} {r' : Except Failure β} (h : StartsTogether b seats (.ok a) log)
    (hmore : ∀ x ∈ more, x.isApart) : StartsTogether b seats r' (log ++ more) := by
  have hrefusal {P : Prop} {x : Exchange} (hx : x ∈ log ++ more) (hrefusal : x.isRefusal = true) :
      P := by
    rcases List.mem_append.1 hx with hlog | hmem
    · obtain ⟨f, hf⟩ := h.fails x hlog hrefusal
      cases hf
    · rw [(hmore x hmem).2] at hrefusal
      cases hrefusal
  refine ⟨fun former x latter hsplit hturn => ?_, fun x hx => hrefusal hx, fun x hx => hrefusal hx⟩
  rcases split_append hsplit with ⟨latter', hfirst⟩ | ⟨former', rfl, hsecond⟩
  · exact h.early former x latter' hfirst hturn
  · rw [(hmore x (hsecond ▸ List.mem_append_right _ List.mem_cons_self)).1] at hturn
    cases hturn

theorem of_error {f : Failure} (h : StartsTogether b seats (.error f : Except Failure α) log) :
    StartsTogether b seats (.error f : Except Failure β) log :=
  ⟨h.early, h.silent, fun _ _ _ => ⟨f, rfl⟩⟩

end StartsTogether

/-- Where a lane is spoilt the lanes do not bring anything home. -/
theorem Round.mapM_outcome_of_isSpoilt {m : Type → Type} [Monad m] {b : Bench m}
    {lanes : List Lane} {lane : Lane} (hlane : lane ∈ lanes)
    (hspoilt : lane.place.isSpoilt = true) :
    ∃ f, lanes.mapM (outcome b) = .error f := by
  have hlost : ∃ f, outcome b lane = .error f := by
    obtain ⟨seat, place⟩ := lane
    cases place with
    | ended outcome =>
      cases outcome with
      | ok harvest => cases hspoilt
      | error f => exact ⟨f, rfl⟩
    | _ => exact ⟨_, rfl⟩
  induction lanes with
  | nil => cases hlane
  | cons first lanes ih =>
    rw [List.mapM_cons]
    cases hfirst : outcome b first with
    | error f => exact ⟨f, rfl⟩
    | ok harvest =>
      rcases List.mem_cons.1 hlane with rfl | hmem
      · obtain ⟨f, hf⟩ := hlost
        rw [hf] at hfirst
        cases hfirst
      · obtain ⟨f, hf⟩ := ih hmem
        exact ⟨f, by rw [hf]; rfl⟩

/-- **A round starts together**, in whatever order its lanes move. -/
theorem Round.startsTogether_runAlong {b : Bench (StateM σ)} {length : IterationLength}
    (seats : List Seat) (schedule : List Nat) :
    Logs (runAlong b.watched length seats schedule).run (StartsTogether b seats) := by
  have hfollow : Logs ((ofSeats seats).follow b.watched length schedule) fun r log =>
      r.Gathering b seats log :=
    logs_follow (P := fun r log => r.Gathering b seats log) gathering_move schedule
      gathering_ofSeats
  unfold runAlong
  rw [ExceptT.run_bind_lift]
  refine Logs.bind hfollow fun r log h => ?_
  have hsilent : ∀ x ∈ log, x.isRefusal = true → ∀ y ∈ log, y.call.isTurn = false := by
    intro x hx hrefusal y hy
    refine eq_false_of_ne_true fun hturn => ?_
    rw [h.clean y hy hturn x hx] at hrefusal
    cases hrefusal
  split
  · next harvests hall =>
    refine Logs.pure ?_
    rw [List.append_nil]
    refine ⟨h.early, hsilent, fun x hx hrefusal => ?_⟩
    obtain ⟨lane, hlane, hspoilt⟩ := h.spoilt x hx hrefusal
    obtain ⟨f, hf⟩ := mapM_outcome_of_isSpoilt (b := b.watched) hlane hspoilt
    rw [hf] at hall
    cases hall
  · next f hall =>
    refine Logs.pure ?_
    rw [List.append_nil]
    exact ⟨h.early, hsilent, fun _ _ _ => ⟨f, rfl⟩⟩

namespace Conductor

variable {c : Conductor (StateM σ)}

theorem asksOnly_fixtures {P : Exchange → Prop} {level : Level} {stage : Stage}
    (h : ∀ scope, ∀ t ∈ c.targets level scope, ∀ answer, P ⟨.fixture stage level t, answer⟩) :
    AsksOnly P (c.watched.fixtures level stage) := by
  refine AsksOnly.forM fun scope _ => ?_
  split
  · refine AsksOnly.forM fun t ht => ?_
    exact (Bench.asksOnly_call (b := c.toBench) _ _ (h scope t ht)).bind fun _ => AsksOnly.pure
  · exact AsksOnly.pure

theorem isApart_fixtures (stage : Stage) :
    AsksOnly Exchange.isApart (c.watched.fixtures .iteration stage) := by
  refine asksOnly_fixtures fun scope t ht answer => ⟨rfl, ?_⟩
  -- the state of a thread is its own affair
  have hthread : ∀ seat, t ≠ .thread seat := by
    rintro seat rfl
    cases scope <;> simp [targets] at ht
  cases t with
  | thread seat => exact absurd rfl (hthread seat)
  | _ => cases stage <;> rfl

theorem startsTogether_runIterationAlong (length : IterationLength) (index : UInt32)
    (schedule : List Nat) :
    Logs (c.watched.runIterationAlong length index schedule).run
      (StartsTogether c.toBench (c.activeSeats index)) := by
  unfold runIterationAlong
  rw [ExceptT.run_bind]
  refine Logs.bind (isApart_fixtures .setup) fun r before hbefore => ?_
  cases r with
  | error f =>
    refine Logs.pure ?_
    rw [List.append_nil]
    exact .of_apart hbefore
  | ok _ =>
    dsimp only
    rw [ExceptT.run_bind]
    refine Logs.bind (Round.startsTogether_runAlong (c.activeSeats index) schedule)
      fun r log hround => ?_
    cases r with
    | error f =>
      refine Logs.pure ?_
      rw [List.append_nil]
      exact hround.of_error.prepend hbefore
    | ok harvests =>
      dsimp only
      rw [ExceptT.run_bind]
      refine Logs.bind (isApart_fixtures .teardown) fun r after hafter => ?_
      cases r with
      | error f =>
        refine Logs.pure ?_
        rw [List.append_nil]
        exact (hround.append hafter).prepend hbefore
      | ok _ =>
        refine Logs.pure ?_
        rw [List.append_nil]
        exact (hround.append hafter).prepend hbefore

/-- **No thread invokes before all are set up, and none at all if a setup fails.**  Whatever the
task answers and in whatever order the threads of an iteration move: before the first invocation
all of them have been set up; where a setup has failed nobody invokes and the iteration has no
result; and every thread comes to the barrier once, within its first three steps. -/
theorem runIteration_startsTogether (c : Conductor (StateM σ)) (length : IterationLength)
    (index : UInt32) (schedule : List Nat) (world : σ) :
    let seats := c.activeSeats index
    let iteration := (c.watched.runIterationAlong length index schedule).run.run world
    (∃ schedule', (c.runIteration length index).run.run world =
      (c.runIterationAlong length index schedule').run.run world) ∧
    (c.runIterationAlong length index schedule).run.run world =
      (iteration.answer, iteration.world) ∧
    StartsTogether c.toBench seats iteration.answer iteration.log ∧
    ∀ i < seats.length, ∀ world',
      (∀ k k', (Round.ofSeats seats).Arrives c.toBench length world' schedule i k →
        (Round.ofSeats seats).Arrives c.toBench length world' schedule i k' → k = k') ∧
      (3 ≤ schedule.count i →
        ∃! k, (Round.ofSeats seats).Arrives c.toBench length world' schedule i k) :=
  ⟨exists_runIterationAlong length index world, shows_runIterationAlong length index schedule world,
    startsTogether_runIterationAlong length index schedule world,
    fun _ hi world' => Round.existsUnique_arrives hi world' schedule⟩

/-- Two threads, the second of which cannot be set up. -/
def halfway : Conductor (StateM Nat) :=
  rehearsed [⟨"a", 2⟩] fun
    | .fixture .setup .iteration (.thread seat) => seat.index == 1
    | _ => false

/-- Both come to the barrier, and neither invokes. -/
theorem runIteration_startsTogether_halfway :
    let schedule := [0, 1, 0, 1, 0, 1, 1, 0, 1, 0, 0, 0, 0]
    let iteration := (halfway.watched.runIterationAlong (.invocations 2) 0 schedule).run.run 0
    (∃ x ∈ iteration.log, x.isRefusal = true) ∧
      (∀ y ∈ iteration.log, y.call.isTurn = false) ∧ (∃ f, iteration.answer = .error f) ∧
      ∀ i < 2, 3 ≤ schedule.count i ∧ ∃! k, (Round.ofSeats (halfway.activeSeats 0)).Arrives
        halfway.toBench (.invocations 2) 0 schedule i k := by
  intro schedule iteration
  have hrefusal : ∃ x ∈ iteration.log, x.isRefusal = true := by decide +kernel
  have hseats : (halfway.activeSeats 0).length = 2 := by decide +kernel
  obtain ⟨-, -, htogether, harrives⟩ :=
    runIteration_startsTogether halfway (.invocations 2) 0 schedule 0
  obtain ⟨x, hx, hbad⟩ := hrefusal
  refine ⟨⟨x, hx, hbad⟩, htogether.silent x hx hbad, htogether.fails x hx hbad, fun i hi => ?_⟩
  have hcount : 3 ≤ schedule.count i := by
    have hboth : ∀ i < 2, 3 ≤ schedule.count i := by decide
    exact hboth i hi
  exact ⟨hcount, (harrives i (by omega) 0).2 hcount⟩

end Conductor

end Microbench
