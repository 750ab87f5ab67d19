import Microbench.Proofs.Engine.Steps

/-!
# The work a thread leaves with

What a thread brings home is what it had measured and recorded when it left its measured
part, whatever it invokes after that.  And what it had then is known from the replies to its
invocations until then.

## Main definitions

* `Lane.Place.Accounts` — what is known of the work of a lane from its replies.
* `Round.Departs` — the work with which a lane leaves its measured part.
* `Round.measured`, `Round.works` — the replies to the measured invocations of each thread, and the
  work with which it leaves.

## Main results

* `Round.accounts` — what is known holds in every reachable state.
* `Round.departs_of_hasKept` — **a lane that has left keeps the work it has left with.**
* `Round.works_of_brings` — **the works that a round brings home** are those with which its lanes
  have left, and they are known from the measured replies.
-/

namespace Microbench

variable {σ : Type}

namespace Lane

/-! ### What is known of the work of a lane -/

/-- What is known of the work of a lane that has not left its measured part, from the replies to its
invocations. -/
def Place.Accounts {m : Type → Type} (b : Bench m) (length : IterationLength) (failed : Bool)
    (replies : List Reply) : Place → Prop
  | measuring _ pace work =>
    length = .time pace.target ∧ 1 ≤ pace.batch ∧ work.Holds b.settings.mode replies
  | batching _ pace size work =>
    length = .time pace.target ∧ 1 ≤ pace.batch ∧ 1 ≤ size ∧ work.Holds b.settings.mode replies
  | leaving (.ok work) => work.Holds b.settings.mode replies ∧
      (failed = false → ∀ n, length = .invocations n → replies.length = n.toNat)
  | place => place.isEarly = true → replies = []

section

variable {m : Type → Type} {b : Bench m} {length : IterationLength} {seat : Seat} {now : Duration}
  {c c' : Common} {place place' : Place} {log : List Exchange} {replies : List Reply}
  {failed failed' : Bool}

theorem Place.accounts_of_isEarly (h : place.isEarly = true) :
    place.Accounts b length failed [] := by
  cases place <;> first | exact fun _ => rfl | cases h

/-- Of a lane that has failed nothing has to be known. -/
theorem Place.accounts_of_isLost (h : place.isLost = true) :
    place.Accounts b length failed replies := by
  have hnever : place.isEarly = true → replies = [] := by
    intro hearly
    rw [Place.not_lost_of_isEarly hearly] at h
    cases h
  cases place with
  | measuring | batching => cases h
  | leaving outcome =>
    cases outcome with
    | ok work => cases h
    | error f => exact hnever
  | _ => exact hnever

/-- Of a lane that has left nothing has to be known. -/
theorem Place.accounts_of_hasLeft (h : place.hasLeft = true) :
    place.Accounts b length failed replies := by
  have hnever : place.isEarly = true → replies = [] := by
    intro hearly
    rw [Place.not_early_of_hasLeft h] at hearly
    cases hearly
  cases place with
  | measuring | batching | leaving => cases h
  | _ => exact hnever

theorem Place.Accounts.eq_nil_of_isEarly (h : place.Accounts b length failed replies)
    (hearly : place.isEarly = true) : replies = [] := by
  cases place <;> first | exact h hearly | cases hearly

theorem Place.Accounts.mono (h : place.Accounts b length failed replies)
    (hfailed : failed' = false → failed = false) : place.Accounts b length failed' replies := by
  cases place with
  | leaving outcome =>
    cases outcome with
    | ok work => exact ⟨h.1, fun hdown => h.2 (hfailed hdown)⟩
    | error f => exact h
  | _ => exact h

/-- **Every step of a lane adds its replies.** -/
theorem Works.accounts (h : Works b length seat now c place log c' place')
    (haccounts : place.Accounts b length c.failed replies) :
    place'.Accounts b length c'.failed (replies ++ repliesOf seat log) := by
  cases h with
  | ready before after same quiet =>
    rw [haccounts.eq_nil_of_isEarly before, quiet]
    exact Place.accounts_of_isEarly after
  | lose lost cause => exact Place.accounts_of_isLost lost
  | skip up =>
    obtain rfl := haccounts.eq_nil_of_isEarly rfl
    refine ⟨Work.holds_nil _, fun hdown => ?_⟩
    rw [up] at hdown
    cases hdown
  | measure counted gains =>
    obtain rfl := haccounts.eq_nil_of_isEarly rfl
    obtain ⟨hholds, hlength⟩ := gains [] (Work.holds_nil _)
    refine ⟨hholds, fun _ n hn => ?_⟩
    obtain rfl := IterationLength.invocations.inj (counted.symm.trans hn)
    exact hlength
  | time timed =>
    obtain rfl := haccounts.eq_nil_of_isEarly rfl
    exact ⟨timed, Nat.le_refl 1, Work.holds_nil _⟩
  | enough past =>
    obtain ⟨htimed, -, hholds⟩ := haccounts
    rw [repliesOf_nil, List.append_nil]
    refine ⟨hholds, fun _ n hn => ?_⟩
    rw [htimed] at hn
    cases hn
  | again under target some =>
    obtain ⟨htimed, hbatch, hholds⟩ := haccounts
    obtain ⟨hsize, hbatch'⟩ := some hbatch
    rw [repliesOf_nil, List.append_nil]
    exact ⟨target ▸ htimed, hbatch', hsize, hholds⟩
  | batch gains =>
    obtain ⟨htimed, hbatch, -, hholds⟩ := haccounts
    exact ⟨htimed, hbatch, (gains replies hholds).1⟩
  | leave same carries =>
    exact Place.accounts_of_hasLeft (Place.hasLeft_of_hasKept carries.hasKept)
  | keep before after carries =>
    exact Place.accounts_of_hasLeft (Place.hasLeft_of_hasKept after)

end

end Lane

namespace Round

variable {b : Bench (StateM σ)} {length : IterationLength} {r : Round} {seats : List Seat}
  {seat : Seat} {world : σ} {schedule : List Nat} {i k : Nat} {w : Work}

/-- **What is known of the work of a lane** in a state that a round has come to. -/
theorem accounts (b : Bench (StateM σ)) (length : IterationLength) (hnodup : seats.Nodup)
    (hi : seats[i]? = some seat) (world : σ) (schedule : List Nat) :
    ∃ place, ((ofSeats seats).reached b length world schedule).lanes[i]? = some ⟨seat, place⟩ ∧
      place.Accounts b length ((ofSeats seats).reached b length world schedule).common.failed
        (repliesOf seat ((ofSeats seats).written b length world schedule)) := by
  refine lane_induction (P := fun _ failed place replies =>
    place.Accounts b length failed replies) hnodup hi world ?_ ?_ ?_ schedule
  · exact fun _ => rfl
  · exact fun _ _ hworks haccounts => hworks.accounts haccounts
  · exact fun _ hdown haccounts => haccounts.mono hdown

/-! ### The work with which a lane leaves -/

/-- The work with which the lane with this index is about to leave its measured part. -/
def workAt? (r : Round) (i : Nat) : Option Work :=
  r.lanes[i]?.bind fun lane =>
    match lane.place with
    | .leaving (.ok work) => some work
    | _ => none

theorem workAt?_eq_some : r.workAt? i = some w ↔
    ∃ seat, r.lanes[i]? = some ⟨seat, .leaving (.ok w)⟩ := by
  unfold workAt?
  cases r.lanes[i]? with
  | none => simp
  | some lane =>
    obtain ⟨seat, place⟩ := lane
    cases place with
    | leaving outcome => cases outcome <;> simp
    | _ => simp

/-- The step after the first `k` is one with which the lane leaves its measured part, and this is
the work with which it does. -/
def Departs (b : Bench (StateM σ)) (length : IterationLength) (r : Round) (world : σ)
    (schedule : List Nat) (i k : Nat) (w : Work) : Prop :=
  r.Leaves b length world schedule i k ∧
    (r.reached b length world (schedule.take k)).workAt? i = some w

theorem Departs.append (h : r.Departs b length world schedule i k w) (latter : List Nat) :
    r.Departs b length world (schedule ++ latter) i k w := by
  obtain ⟨⟨hstep, hbefore, hafter⟩, hwork⟩ := h
  have hlt : k < schedule.length := (List.getElem?_eq_some_iff.1 hstep).1
  have htake : (schedule ++ latter).take k = schedule.take k :=
    List.take_append_of_le_length hlt.le
  have htake' : (schedule ++ latter).take (k + 1) = schedule.take (k + 1) :=
    List.take_append_of_le_length hlt
  refine ⟨⟨(List.getElem?_append_left hlt).trans hstep, ?_, ?_⟩, ?_⟩
  · rwa [htake]
  · rwa [htake']
  · rwa [htake]

/-- A lane leaves its measured part once, and with one work. -/
theorem Departs.unique {k' : Nat} {w' : Work}
    (h : (ofSeats seats).Departs b length world schedule i k w)
    (h' : (ofSeats seats).Departs b length world schedule i k' w') : k = k' ∧ w = w' := by
  obtain ⟨⟨-, hbefore, hafter⟩, hwork⟩ := h
  obtain ⟨⟨-, hbefore', hafter'⟩, hwork'⟩ := h'
  obtain rfl : k = k' := (existsUnique_crossing
    (reached_standsAt_mono stays_hasLeft world schedule) (standsAt_ofSeats rfl) hafter).unique
      ⟨hbefore, hafter⟩ ⟨hbefore', hafter'⟩
  exact ⟨rfl, Option.some.inj (hwork.symm.trans hwork')⟩

/-- With its next step the lane leaves its measured part. -/
theorem leaves_append {former : List Nat}
    (hbefore : (r.reached b length world former).standsAt i Lane.Place.hasLeft = false)
    (hafter : (r.reached b length world (former ++ [i])).standsAt i Lane.Place.hasLeft = true)
    (latter : List Nat) : r.Leaves b length world (former ++ i :: latter) i former.length := by
  have hlength : (former ++ [i]).length = former.length + 1 := List.length_append
  refine ⟨by simp, ?_, ?_⟩
  · rwa [List.take_left]
  · rwa [List.append_cons, List.take_left' hlength]

/-- **A lane that has left keeps the work it has left with**, unless it fails. -/
theorem departs_of_hasKept (b : Bench (StateM σ)) (length : IterationLength)
    (hnodup : seats.Nodup) (hi : seats[i]? = some seat) (world : σ) (schedule : List Nat) :
    ∃ place, ((ofSeats seats).reached b length world schedule).lanes[i]? = some ⟨seat, place⟩ ∧
      (place.hasKept = true → ∃ k w, (ofSeats seats).Departs b length world schedule i k w ∧
        place.Carries b w) := by
  refine lane_induction (P := fun former _ place _ => place.hasKept = true →
    ∃ k w, (ofSeats seats).Departs b length world former i k w ∧ place.Carries b w)
    hnodup hi world ?_ ?_ ?_ schedule
  · exact nofun
  · intro former c place log c' place' replies hplace hplace' hworks hbefore hafter
    cases hkept : place.hasKept with
    | true =>
      obtain ⟨k, w, hdeparts, hcarries⟩ := hbefore hkept
      exact ⟨k, w, hdeparts.append [i], hworks.carries_of_hasKept hkept hafter w hcarries⟩
    | false =>
      -- this is the step with which it leaves
      obtain ⟨w, rfl, hcarries⟩ := hworks.carries_of_leaves hkept hafter
      refine ⟨former.length, w, ⟨leaves_append ?_ ?_ [], workAt?_eq_some.2 ⟨seat, ?_⟩⟩, hcarries⟩
      · rw [standsAt_of_getElem? hplace]
        rfl
      · rw [standsAt_of_getElem? hplace']
        exact Lane.Place.hasLeft_of_hasKept hafter
      · rwa [List.take_left]
  · intro former index failed failed' place replies _ _ hbefore hkept
    obtain ⟨k, w, hdeparts, hcarries⟩ := hbefore hkept
    exact ⟨k, w, hdeparts.append [index], hcarries⟩

/-- Where the flag is down it has been down before. -/
theorem down_take (r : Round) (h : (r.reached b length world schedule).common.failed = false)
    (k : Nat) : (r.reached b length world (schedule.take k)).common.failed = false := by
  refine failed_append r world (schedule.take k) (schedule.drop k) ?_
  rwa [List.take_append_drop]

/-- **That work is known from the replies until then**; a counted iteration has had as many of them
as it has to have, unless the flag was up. -/
theorem holds_of_departs (hnodup : seats.Nodup) (hi : seats[i]? = some seat)
    (h : (ofSeats seats).Departs b length world schedule i k w) :
    w.Holds b.settings.mode
      (repliesOf seat ((ofSeats seats).written b length world (schedule.take k))) ∧
    (((ofSeats seats).reached b length world schedule).common.failed = false →
      ∀ n, length = .invocations n →
        (repliesOf seat ((ofSeats seats).written b length world (schedule.take k))).length =
          n.toNat) := by
  obtain ⟨seat', hdeparts⟩ := workAt?_eq_some.1 h.2
  obtain ⟨place, hplace, haccounts⟩ := accounts b length hnodup hi world (schedule.take k)
  obtain ⟨-, rfl⟩ := Lane.mk.inj (Option.some.inj (hdeparts.symm.trans hplace))
  exact ⟨haccounts.1, fun hdown => haccounts.2 (down_take _ hdown k)⟩

/-! ### Measured replies -/

/-- How many steps come before the one with which a lane leaves its measured part; all of them, if
it does not. -/
def leaving (b : Bench (StateM σ)) (length : IterationLength) (r : Round) (world : σ)
    (schedule : List Nat) (i : Nat) : Nat :=
  ((List.range schedule.length).find? fun k =>
    (r.reached b length world (schedule.take (k + 1))).standsAt i Lane.Place.hasLeft).getD
      schedule.length

/-- The replies to the measured invocations of each thread, which are those that it makes before it
leaves its measured part. -/
def measured (b : Bench (StateM σ)) (length : IterationLength) (seats : List Seat) (world : σ)
    (schedule : List Nat) : List (List Reply) :=
  seats.mapIdx fun i seat => repliesOf seat ((ofSeats seats).written b length world
    (schedule.take ((ofSeats seats).leaving b length world schedule i)))

/-- The works of the threads with which they leave their measured part; one that does not leave it
has none. -/
def works (b : Bench (StateM σ)) (length : IterationLength) (seats : List Seat) (world : σ)
    (schedule : List Nat) : List Work :=
  (seats.mapIdx fun i _ => ((ofSeats seats).reached b length world
    (schedule.take ((ofSeats seats).leaving b length world schedule i))).workAt? i).reduceOption

@[simp] theorem length_measured (b : Bench (StateM σ)) (length : IterationLength)
    (seats : List Seat) (world : σ) (schedule : List Nat) :
    (measured b length seats world schedule).length = seats.length := List.length_mapIdx

theorem leaving_of_leaves (h : r.Leaves b length world schedule i k) :
    r.leaving b length world schedule i = k := by
  obtain ⟨hstep, hbefore, hafter⟩ := h
  have hlt : k < schedule.length := (List.getElem?_eq_some_iff.1 hstep).1
  have hfirst : (List.range schedule.length).find? (fun k =>
      (r.reached b length world (schedule.take (k + 1))).standsAt i Lane.Place.hasLeft) =
        some k := by
    refine List.find?_range_eq_some.2 ⟨hafter, List.mem_range.2 hlt, fun j hj => ?_⟩
    -- who had left with an earlier step would have left before this one
    have hmono := monotone_nat_of_le_succ (f := fun k =>
      (r.reached b length world (schedule.take k)).standsAt i Lane.Place.hasLeft)
        fun k => Bool.le_iff_imp.2 (reached_standsAt_mono stays_hasLeft world schedule k)
    rw [Bool.not_eq_true']
    refine eq_false_of_ne_true fun hearlier => ?_
    have hlater := Bool.le_iff_imp.1 (hmono (Nat.succ_le_of_lt hj)) hearlier
    exact Bool.false_ne_true (hbefore.symm.trans hlater)
  rw [leaving, hfirst]
  rfl

theorem getElem?_measured (hi : seats[i]? = some seat)
    (h : (ofSeats seats).Leaves b length world schedule i k) :
    (measured b length seats world schedule)[i]? =
      some (repliesOf seat ((ofSeats seats).written b length world (schedule.take k))) := by
  rw [measured, List.getElem?_mapIdx, hi, leaving_of_leaves h]
  rfl

/-- Works with which the threads leave, one for each of them, are their works. -/
theorem works_eq {ws : List Work} (hlength : ws.length = seats.length)
    (h : ∀ i w, ws[i]? = some w → ∃ k, (ofSeats seats).Departs b length world schedule i k w) :
    works b length seats world schedule = ws := by
  have hall : (seats.mapIdx fun i _ => ((ofSeats seats).reached b length world
      (schedule.take ((ofSeats seats).leaving b length world schedule i))).workAt? i) =
        ws.map some := by
    refine List.ext_getElem (by simp [hlength]) fun i _ hi => ?_
    rw [List.length_map] at hi
    obtain ⟨k, hleaves, hwork⟩ := h i ws[i] (List.getElem?_eq_getElem hi)
    rw [List.getElem_mapIdx, List.getElem_map, leaving_of_leaves hleaves, hwork]
  rw [works, hall]
  exact List.filterMap_map.trans List.filterMap_some

/-! ### What a round brings home -/

/-- A round that brings something home brings home the works with which its lanes have left. -/
theorem departs_of_brings (hnodup : seats.Nodup) {harvests : List Harvest}
    (h : ((ofSeats seats).reached b length world schedule).lanes.mapM (outcome b) =
      .ok harvests) (hi : seats[i]? = some seat) :
    ∃ k w, (ofSeats seats).Departs b length world schedule i k w ∧
      harvests[i]? = some (b.harvest w) := by
  obtain ⟨place, hplace, hkept⟩ := departs_of_hasKept b length hnodup hi world schedule
  obtain ⟨harvest, hharvest, rfl⟩ := ended_of_brings h hplace
  obtain ⟨k, w, hdeparts, hcarries⟩ := hkept rfl
  exact ⟨k, w, hdeparts, hharvest.trans (congrArg some hcarries)⟩

/-- **The works that a round brings home** are those with which its lanes have left, and they are
known from the measured replies. -/
theorem works_of_brings (hnodup : seats.Nodup) {harvests : List Harvest}
    (h : ((ofSeats seats).reached b length world schedule).lanes.mapM (outcome b) =
      .ok harvests) :
    let ws := works b length seats world schedule
    harvests = ws.map b.harvest ∧
      List.Forall₂ (fun w replies => w.Holds b.settings.mode replies) ws
        (measured b length seats world schedule) ∧
      ∀ i w, ws[i]? = some w → ∃ k, (ofSeats seats).Departs b length world schedule i k w := by
  intro ws
  have hone (i : Fin seats.length) := departs_of_brings hnodup h (List.getElem?_eq_getElem i.2)
  choose k work hdeparts hharvest using hone
  have hmeeting : ((ofSeats seats).reached b length world schedule).Meeting seats :=
    meeting_reached world schedule
  have hlength : harvests.length = seats.length := by
    have hlanes := congrArg List.length hmeeting.seats_eq
    rwa [List.length_map, (forall₂_of_mapM_ok h).length_eq] at hlanes
  have hleft : ∀ i w, (List.ofFn work)[i]? = some w →
      ∃ k, (ofSeats seats).Departs b length world schedule i k w := by
    intro i w hw
    obtain ⟨hi, rfl⟩ := List.getElem?_eq_some_iff.1 hw
    rw [List.length_ofFn] at hi
    rw [List.getElem_ofFn]
    exact ⟨_, hdeparts ⟨i, hi⟩⟩
  have hworks : ws = List.ofFn work := works_eq List.length_ofFn hleft
  rw [hworks]
  refine ⟨?_, ?_, hleft⟩
  · refine List.ext_getElem (by simp [hlength]) fun i hi _ => ?_
    rw [List.getElem_map, List.getElem_ofFn, List.getElem_eq_iff]
    exact hharvest ⟨i, hlength ▸ hi⟩
  · refine List.forall₂_iff_get.2 ⟨by simp, fun i hi hi' => ?_⟩
    rw [length_measured] at hi'
    have hseat : seats[i]? = some seats[i] := List.getElem?_eq_getElem hi'
    have hholds := (holds_of_departs hnodup hseat (hdeparts ⟨i, hi'⟩)).1
    have hmeasured := getElem?_measured hseat (hdeparts ⟨i, hi'⟩).1
    rw [← (List.getElem_eq_iff (by simpa)).2 hmeasured] at hholds
    rw [List.get_eq_getElem, List.get_eq_getElem, List.getElem_ofFn]
    exact hholds

/-- In a counted iteration there are as many measured invocations as there have to be. -/
theorem length_of_mem_measured (hnodup : seats.Nodup) {harvests : List Harvest} {n : UInt64}
    (h : ((ofSeats seats).reached b (.invocations n) world schedule).lanes.mapM (outcome b) =
      .ok harvests) :
    ∀ replies ∈ measured b (.invocations n) seats world schedule, replies.length = n.toNat := by
  intro replies hreplies
  obtain ⟨i, hi⟩ := List.mem_iff_getElem?.1 hreplies
  have hlt : i < seats.length := by
    have hlt := (List.getElem?_eq_some_iff.1 hi).1
    rwa [length_measured] at hlt
  have hseat : seats[i]? = some seats[i] := List.getElem?_eq_getElem hlt
  obtain ⟨k, w, hdeparts, -⟩ := departs_of_brings hnodup h hseat
  rw [getElem?_measured hseat hdeparts.1] at hi
  rw [← Option.some.inj hi]
  exact (holds_of_departs hnodup hseat hdeparts).2 (down_of_brings h) n rfl

end Round

end Microbench
