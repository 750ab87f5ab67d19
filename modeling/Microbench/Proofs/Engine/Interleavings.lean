import Microbench.Proofs.Engine.Lanes

/-!
# Lanes in any order

The steps of the lanes of a round may follow each other in any order.  Whatever the
order is, the calls about the state of one thread come from its own lane only.  So
where a lane stands tells which of them have been made, as long as nothing fails:
its iteration setup, its invocations, and its iteration teardown.  Lanes that wait for
the others invoke more often than they have to.

## Main definitions

* `Lane.Tells` — the calls about the state of a thread whose lane stands at a place.
* `Round.Tells` — the same for all lanes of a round.

## Main results

* `Lane.tells_advance` — a step of a lane.
* `Round.tells_step`, `Round.tells_follow` — a step of a round, and a run of it in any order.
* `Round.follow_bracketed` — **what the threads of a round have gone through at its end.**
-/

namespace Microbench

variable {σ : Type}

/-! ### Calls about one thread -/

namespace Bench

variable {m : Type → Type} {b : Bench m} {seat seat' : Seat}

theorem filter_ownFixture (stage : Stage) :
    (b.ownFixture stage seat).filter (Call.isOn seat) = b.ownFixture stage seat := by
  unfold ownFixture
  split <;> simp [Call.isOn]

theorem filter_ownFixture_of_ne (h : seat ≠ seat') (stage : Stage) :
    (b.ownFixture stage seat).filter (Call.isOn seat') = [] := by
  unfold ownFixture
  split <;> simp [Call.isOn, h]

/-- An invocation as far as the state of its thread is concerned. -/
theorem filter_around :
    (b.around seat).filter (Call.isOn seat) =
      bracket b.task.fixtures .invocation [.thread seat] [.invoke seat] := by
  rw [around, filter_bracket]
  simp [Call.isOn]

theorem filter_around_of_ne (h : seat ≠ seat') :
    (b.around seat).filter (Call.isOn seat') = [] := by
  rw [around, filter_bracket]
  simp [Call.isOn, h, bracket]

theorem filter_flatten_replicate (n : Nat) (p : Call → Bool) (l : List Call) :
    (List.replicate n l).flatten.filter p = (List.replicate n (l.filter p)).flatten := by
  rw [List.filter_flatten, List.map_replicate]

/-- The iteration fixture of a thread stands around what happens in between. -/
theorem ownFixture_append (inner : List Call) :
    b.ownFixture .setup seat ++ inner ++ b.ownFixture .teardown seat =
      bracket b.task.fixtures .iteration [.thread seat] inner := by
  unfold ownFixture bracket
  by_cases h : b.task.fixtures.has .iteration .thread <;> simp [bracket, Target.scope, h]

/-- So many invocations of a thread as far as its own state is concerned. -/
def turns (b : Bench m) (seat : Seat) (k : Nat) : List Call :=
  (List.replicate k (bracket b.task.fixtures .invocation [.thread seat] [.invoke seat])).flatten

theorem filter_turns (k : Nat) :
    (List.replicate k (b.around seat)).flatten.filter (Call.isOn seat) = b.turns seat k := by
  rw [filter_flatten_replicate, filter_around, turns]

theorem filter_turns_of_ne (h : seat ≠ seat') (k : Nat) :
    (List.replicate k (b.around seat)).flatten.filter (Call.isOn seat') = [] := by
  rw [filter_flatten_replicate, filter_around_of_ne h]
  simp

theorem turns_succ (k : Nat) : b.turns seat (k + 1) = b.turns seat k ++ b.turns seat 1 := by
  unfold turns
  rw [List.replicate_add, List.flatten_append]

end Bench

namespace Lane

/-- The calls that have been made about the state of a thread whose lane stands at a place, when
nothing has failed and `n` invocations are to be measured. -/
def Tells {m : Type → Type} (b : Bench m) (n : Nat) (seat : Seat) (made : List Call) : Place → Prop
  | .entering => made = []
  | .arriving none | .waiting none | .checking | .starting => made = b.ownFixture .setup seat
  | .leaving (.ok _) => made = b.ownFixture .setup seat ++ b.turns seat n
  | .idling _ | .looking _ | .spinning _ =>
    b.settings.syncIterations = true ∧
      ∃ k, n ≤ k ∧ made = b.ownFixture .setup seat ++ b.turns seat k
  | .closing _ =>
    ∃ k, n ≤ k ∧ (b.settings.syncIterations = false → k = n) ∧
      made = b.ownFixture .setup seat ++ b.turns seat k
  | .ended (.ok _) =>
    ∃ k, n ≤ k ∧ (b.settings.syncIterations = false → k = n) ∧
      made = b.ownFixture .setup seat ++ b.turns seat k ++ b.ownFixture .teardown seat
  | _ => False

variable {b : Bench (StateM σ)} {size : UInt64} {seat : Seat} {c : Common} {made : List Call}

/-- What a step of a lane keeps: nothing fails, its calls are about no other thread, and they are
those that its new place tells. -/
def Keeps {m : Type → Type} (b : Bench m) (n : Nat) (seat : Seat) (made : List Call)
    (next : Common × Place) (more : List Call) : Prop :=
  next.1.failed = false ∧ (∀ seat' ≠ seat, more.filter (Call.isOn seat') = []) ∧
    Tells b n seat (made ++ more.filter (Call.isOn seat)) next.2

theorem keeps_pure {n : Nat} {c' : Common} {place : Place} (hfailed : c'.failed = false)
    (h : Tells b n seat made place) :
    Soundly (σ := σ) (pure (c', place)) (Keeps b n seat made) := by
  refine Soundly.pure ⟨hfailed, fun _ _ => rfl, ?_⟩
  rwa [List.filter_nil, List.append_nil]

/-- A step that may fail, but does not. -/
theorem keeps_settle {ε α : Type} {n : Nat} {blame : Call → TaskError → ε} {script : List Call}
    {x : ExceptT ε (Watched σ) α} {ok : α → Place} {error : ε → Place}
    (hx : Performs True blame x script) (hfailed : c.failed = false)
    (hother : ∀ seat' ≠ seat, script.filter (Call.isOn seat') = [])
    (hok : ∀ a, Tells b n seat (made ++ script.filter (Call.isOn seat)) (ok a)) :
    Soundly ((c, ·) <$> settle x ok error) (Keeps b n seat made) := by
  refine Soundly.map (Soundly.bind hx.soundly ?_)
  rintro r _ ⟨⟨a, rfl⟩, rfl⟩
  refine Soundly.pure ?_
  rw [List.append_nil]
  exact ⟨hfailed, hother, hok a⟩

/-- **A step of a lane** makes the calls that its new place tells. -/
theorem tells_advance {place : Place} (hfailed : c.failed = false)
    (h : Tells b size.toNat seat made place) :
    Soundly (advance b.watched (.invocations size) seat c place)
      (Keeps b size.toNat seat made) := by
  have hown : ∀ stage, ∀ seat' ≠ seat,
      (b.ownFixture stage seat).filter (Call.isOn seat') = [] :=
    fun stage seat' hne => Bench.filter_ownFixture_of_ne (Ne.symm hne) stage
  have hturns : ∀ k, ∀ seat' ≠ seat,
      (List.replicate k (b.around seat)).flatten.filter (Call.isOn seat') = [] :=
    fun k seat' hne => Bench.filter_turns_of_ne (Ne.symm hne) k
  -- the places of a failure are told nothing, so that they cannot have been reached
  cases place with
  | entering =>
    obtain rfl : made = [] := h
    refine keeps_settle (Bench.performs_threadFixture .setup) hfailed (hown .setup) fun _ => ?_
    exact Bench.filter_ownFixture .setup
  | alarming e => exact h.elim
  | arriving refusal =>
    cases refusal with
    | some e => exact h.elim
    | none => exact keeps_pure hfailed h
  | waiting refusal =>
    cases refusal with
    | some e => exact h.elim
    | none =>
      unfold advance
      dsimp only
      split
      · exact keeps_pure hfailed h
      · exact keeps_pure hfailed h
  | refused e => exact h.elim
  | checking =>
    unfold advance
    dsimp only
    rw [if_neg (ne_true_of_eq_false hfailed)]
    exact keeps_pure hfailed h
  | starting =>
    obtain rfl : made = b.ownFixture .setup seat := h
    refine keeps_settle (Bench.performs_batch _ _) hfailed (hturns _) fun work => ?_
    show _ = _
    rw [Bench.filter_turns]
  | measuring start pace work => exact h.elim
  | batching start pace batch work => exact h.elim
  | broken f => exact h.elim
  | leaving outcome =>
    cases outcome with
    | error f => exact h.elim
    | ok work =>
      unfold advance
      dsimp only
      by_cases hsync : b.settings.syncIterations = true
      · have hplace : (if b.watched.settings.syncIterations then Place.idling work
            else Place.closing work) = .idling work := if_pos hsync
        rw [hplace]
        exact keeps_pure hfailed ⟨hsync, _, Nat.le_refl _, h⟩
      · have hplace : (if b.watched.settings.syncIterations then Place.idling work
            else Place.closing work) = .closing work := if_neg hsync
        rw [hplace]
        exact keeps_pure hfailed ⟨_, Nat.le_refl _, fun _ => rfl, h⟩
  | idling work =>
    obtain ⟨hsync, k, hk, hmade⟩ := h
    unfold advance
    dsimp only
    split
    · exact keeps_pure hfailed ⟨hsync, k, hk, hmade⟩
    · refine keeps_pure hfailed ⟨k, hk, fun hoff => ?_, hmade⟩
      rw [hsync] at hoff
      cases hoff
  | looking work =>
    unfold advance
    dsimp only
    rw [if_neg (ne_true_of_eq_false hfailed)]
    exact keeps_pure hfailed h
  | spinning work =>
    -- one more invocation than was asked for
    obtain ⟨hsync, k, hk, rfl⟩ := h
    refine keeps_settle (Bench.performs_batch 1 _) hfailed (hturns 1) fun _ => ?_
    refine ⟨hsync, k + 1, Nat.le_succ_of_le hk, ?_⟩
    rw [Bench.filter_turns, List.append_assoc, ← Bench.turns_succ]
  | closing work =>
    obtain ⟨k, hk, hexact, rfl⟩ := h
    refine keeps_settle (Bench.performs_threadFixture .teardown) hfailed (hown .teardown)
      fun _ => ?_
    refine ⟨k, hk, hexact, ?_⟩
    rw [Bench.filter_ownFixture]
  | failing f => exact h.elim
  | ended outcome => exact keeps_pure hfailed h

end Lane

namespace Round

/-- The calls that have been made about the states of the threads of a round, when nothing has
failed. -/
structure Tells {m : Type → Type} (b : Bench m) (n : Nat) (seats : List Seat) (r : Round)
    (made : List Call) : Prop where
  /-- Nothing has failed. -/
  failed : r.common.failed = false
  /-- There is a lane for every thread. -/
  seats_eq : r.lanes.map Lane.seat = seats
  /-- Every lane tells the calls about the state of its thread. -/
  lanes : ∀ lane ∈ r.lanes, Lane.Tells b n lane.seat (made.filter (Call.isOn lane.seat)) lane.place
  /-- There are no calls about the state of another thread. -/
  others : ∀ seat ∉ seats, made.filter (Call.isOn seat) = []

variable {b : Bench (StateM σ)} {size : UInt64} {seats : List Seat} {r : Round} {made : List Call}

theorem tells_ofSeats : (ofSeats seats).Tells b size.toNat seats [] := by
  refine ⟨rfl, ?_, ?_, fun _ _ => rfl⟩
  · simp [ofSeats, Function.comp_def]
  · intro lane hlane
    obtain ⟨seat, -, rfl⟩ := List.mem_map.1 hlane
    rfl

/-- A step of a round, whichever lane it is that moves. -/
theorem tells_step (hnodup : seats.Nodup) (h : r.Tells b size.toNat seats made) (index : Nat) :
    Soundly (r.step b.watched (.invocations size) index) fun r' more =>
      r'.Tells b size.toNat seats (made ++ more) := by
  unfold step
  split
  · refine Soundly.pure ?_
    rwa [List.append_nil]
  · next lane hlane =>
    have hmem : lane ∈ r.lanes := List.mem_of_getElem? hlane
    refine Soundly.bind (Lane.tells_advance h.failed (h.lanes lane hmem)) ?_
    rintro ⟨common, place⟩ more ⟨hfailed, hothers, hplace⟩
    refine Soundly.pure ?_
    rw [List.append_nil]
    have hlt : index < r.lanes.length := (List.getElem?_eq_some_iff.1 hlane).1
    have hseats : (r.lanes.set index { lane with place }).map Lane.seat = seats := by
      rw [List.map_set, ← h.seats_eq]
      exact set_of_getElem? (by rw [List.getElem?_map, hlane]; rfl)
    refine ⟨hfailed, hseats, ?_, ?_⟩
    · intro other hother
      obtain ⟨j, hj⟩ := List.mem_iff_getElem?.1 hother
      rw [List.filter_append]
      by_cases hij : index = j
      · subst hij
        rw [List.getElem?_set_self hlt] at hj
        obtain rfl := Option.some.inj hj
        exact hplace
      · -- no other lane has the same seat
        rw [List.getElem?_set_ne hij] at hj
        have hne : other.seat ≠ lane.seat := by
          intro heq
          have hnodup' : (r.lanes.map Lane.seat).Nodup := h.seats_eq ▸ hnodup
          refine hij ((List.getElem?_inj (by rwa [List.length_map]) hnodup').1 ?_)
          rw [List.getElem?_map, List.getElem?_map, hlane, hj, Option.map_some, Option.map_some,
            heq]
        rw [hothers _ hne, List.append_nil]
        exact h.lanes other (List.mem_of_getElem? hj)
    · intro seat hseat
      have hne : seat ≠ lane.seat := by
        rintro rfl
        exact hseat (h.seats_eq ▸ List.mem_map_of_mem hmem)
      rw [List.filter_append, h.others seat hseat, hothers seat hne]
      rfl

/-- A run of a round, whatever the order of its steps is. -/
theorem tells_follow (hnodup : seats.Nodup) (schedule : List Nat) :
    ∀ {r : Round} {made : List Call}, r.Tells b size.toNat seats made →
      Soundly (r.follow b.watched (.invocations size) schedule) fun r' more =>
        r'.Tells b size.toNat seats (made ++ more) := by
  induction schedule with
  | nil =>
    intro r made h
    refine Soundly.pure ?_
    rwa [List.append_nil]
  | cons index schedule ih =>
    intro r made h
    unfold follow
    rw [List.foldlM_cons]
    refine Soundly.bind (tells_step hnodup h index) fun r' more h' => ?_
    refine (ih h').mono fun r'' more' h'' => ?_
    rwa [← List.append_assoc]

/-- What the threads of a round have gone through: the calls about the state of a thread at its end
are an iteration with at least `n` invocations, and exactly `n` if threads do not wait for each
other.  There are no calls about a thread that does not take part. -/
structure Bracketed {m : Type → Type} (b : Bench m) (n : Nat) (seats : List Seat) (r : Round)
    (made : List Call) : Prop where
  /-- There is a lane for every thread. -/
  seats_eq : r.lanes.map Lane.seat = seats
  /-- A thread that is at its end has been set up, has invoked, and has been torn down. -/
  ended : ∀ lane ∈ r.lanes, lane.place.isOver = true →
    (∃ harvest, lane.place = .ended (.ok harvest)) ∧
      ∃ k, n ≤ k ∧ (b.settings.syncIterations = false → k = n) ∧
        made.filter (Call.isOn lane.seat) =
          iterationCalls b.task.fixtures [.thread lane.seat] lane.seat k
  /-- There are no calls about the state of another thread. -/
  others : ∀ seat ∉ seats, made.filter (Call.isOn seat) = []

/-- **At the end of a round** every thread has gone through its iteration, in whatever order the
steps of the threads have followed each other. -/
theorem follow_bracketed (hnodup : seats.Nodup) (schedule : List Nat) :
    Soundly ((ofSeats seats).follow b.watched (.invocations size) schedule) fun r made =>
      r.Bracketed b size.toNat seats made := by
  refine (tells_follow hnodup schedule tells_ofSeats).mono fun r made h => ?_
  refine ⟨h.seats_eq, fun lane hlane hover => ?_, h.others⟩
  have htells := h.lanes lane hlane
  cases hplace : lane.place with
  | ended outcome =>
    rw [hplace] at htells
    cases outcome with
    | error f => exact htells.elim
    | ok harvest =>
      obtain ⟨k, hk, hexact, hmade⟩ := htells
      refine ⟨⟨harvest, rfl⟩, k, hk, hexact, ?_⟩
      rw [List.nil_append] at hmade
      rw [hmade, Bench.ownFixture_append]
      rfl
  | _ =>
    rw [hplace] at hover
    cases hover

end Round

end Microbench
