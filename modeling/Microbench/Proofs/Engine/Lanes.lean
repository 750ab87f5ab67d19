import Microbench.Proofs.Engine.Scripts

/-!
# The lanes of a counted iteration

In an iteration with a given number of invocations a lane that is stepped until it
stands where it should does one thing between two such places: its iteration setup up
to the barrier, its batch, and its iteration teardown.  A round of one lane is these
three one after the other.  In a round of several lanes all of them do the first,
then all the second, then all the third, as long as nothing fails.

## Main definitions

* `Lane.walk` — steps of one lane until it stands where it should.
* `Lane.alone` — what the only lane of a round does.
* `Bench.roundScript` — the calls of a round.

## Main results

* `Lane.settleLane_eq` — a round in which one lane is stepped.
* `Lane.walk_entering`, `Lane.walk_waiting`, `Lane.walk_closing` — the three parts of a lane.
* `Round.run_singleton` — a round of one lane.
* `Round.performs_run` — **the calls of a round are those of its script.**
-/

namespace Microbench

theorem set_of_getElem? {α : Type} {l : List α} {index : Nat} {a : α} (h : l[index]? = some a) :
    l.set index a = l := by
  obtain ⟨hlt, rfl⟩ := List.getElem?_eq_some_iff.1 h
  exact List.set_getElem_self hlt

namespace Lane

variable {m : Type → Type} [Monad m] {b : Bench m} {length : IterationLength} {seat : Seat}
  {stop : Place → Bool} {n : Nat} {c : Common}

/-- Steps of one lane until it stands where it should, or patience is used up. -/
def walk (b : Bench m) (length : IterationLength) (stop : Place → Bool) (seat : Seat) :
    Nat → Common → Place → m (Common × Place)
  | 0, c, place => pure (c, place)
  | patience + 1, c, place =>
    if stop place then pure (c, place)
    else do
      let next ← advance b length seat c place
      walk b length stop seat patience next.1 next.2

theorem walk_stop {place : Place} (h : stop place = true) :
    walk b length stop seat n c place = pure (c, place) := by
  cases n with
  | zero => rfl
  | succ n => rw [walk, if_pos h]

theorem walk_succ {place : Place} (h : stop place = false) :
    walk b length stop seat (n + 1) c place =
      advance b length seat c place >>= fun next =>
        walk b length stop seat n next.1 next.2 := by
  rw [walk, if_neg (ne_true_of_eq_false h)]

variable [LawfulMonad m]

theorem walk_pure (place : Place) {place' : Place} {c' : Common} (h : stop place = false)
    (hstep : advance b length seat c place = pure (c', place')) :
    walk b length stop seat (n + 1) c place = walk b length stop seat n c' place' := by
  rw [walk_succ h, hstep, pure_bind]

theorem walk_settle {ε α : Type} (place : Place) {x : ExceptT ε m α} {ok : α → Place}
    {error : ε → Place} (h : stop place = false)
    (hstep : advance b length seat c place = (c, ·) <$> settle x ok error) :
    walk b length stop seat (n + 1) c place = x.run >>= fun r =>
      match r with
      | .ok a => walk b length stop seat n c (ok a)
      | .error e => walk b length stop seat n c (error e) := by
  rw [walk_succ h, hstep, bind_map_left, settle, bind_assoc]
  refine bind_congr fun r => ?_
  cases r <;> rw [pure_bind]

/-- Stepping a lane of a round changes what is shared and the place of that lane. -/
theorem settleLane_eq (index : Nat) (r : Round) {lane : Lane} (h : r.lanes[index]? = some lane)
    (patience : Nat) :
    Round.settleLane b length stop index patience r =
      walk b length stop lane.seat patience r.common lane.place >>= fun next =>
        pure ⟨next.1, r.lanes.set index ⟨lane.seat, next.2⟩⟩ := by
  induction patience generalizing r lane with
  | zero => rw [Round.settleLane, walk, pure_bind, set_of_getElem? h]
  | succ patience ih =>
    unfold Round.settleLane walk
    simp only [h]
    split
    · rw [pure_bind, set_of_getElem? h]
    · have hstep : r.step b length index = advance b length lane.seat r.common lane.place >>=
          fun next => pure ⟨next.1, r.lanes.set index ⟨lane.seat, next.2⟩⟩ := by
        unfold Round.step
        rw [h]
      have hlt := (List.getElem?_eq_some_iff.1 h).1
      rw [hstep, bind_assoc, bind_assoc]
      refine bind_congr fun next => ?_
      rw [pure_bind, ih _ (List.getElem?_set_self hlt)]
      simp only [List.set_set]

/-! ### The three parts of a lane -/

/-- From its beginning a lane goes through its iteration setup to the barrier. -/
theorem walk_entering (hn : 3 ≤ n) :
    walk b length Place.isWaiting seat n c .entering =
      (b.threadFixture seat .setup).run >>= fun r =>
        pure <| match r with
          | .ok _ => ({ c with arrived := c.arrived + 1 }, .waiting none)
          | .error e =>
            ({ c with failed := true, arrived := c.arrived + 1 }, .waiting (some e)) := by
  obtain ⟨n, rfl⟩ := Nat.exists_eq_add_of_le' hn
  rw [walk_settle .entering rfl rfl]
  refine bind_congr fun r => ?_
  cases r with
  | ok _ =>
    dsimp only
    rw [walk_pure (.arriving none) rfl rfl, walk_stop rfl]
  | error e =>
    dsimp only
    rw [walk_pure (.alarming e) rfl rfl, walk_pure (.arriving (some e)) rfl rfl,
      walk_stop rfl]

/-- A lane whose setup has failed does not measure. -/
theorem walk_refused (hn : 2 ≤ n) (hall : c.total ≤ c.arrived) (e : TaskError) :
    walk b length Place.isDone seat n c (.waiting (some e)) =
      pure ({ c with finished := c.finished + 1, failed := true },
        .ended (.error (b.failure (.setup .iteration) (some seat.index) e))) := by
  obtain ⟨n, rfl⟩ := Nat.exists_eq_add_of_le' hn
  have hwait : advance b length seat c (.waiting (some e)) = pure (c, .refused e) :=
    if_neg (Nat.not_lt.2 hall)
  rw [walk_pure _ rfl hwait, walk_pure (.refused e) rfl rfl, walk_stop rfl]

/-- Where a lane goes that has measured. -/
def afterwards (b : Bench m) (work : Work) : Place :=
  if b.settings.syncIterations then .idling work else .closing work

/-- From the barrier a lane goes through its batch to where it has left its measured part. -/
theorem walk_waiting {size : UInt64} (hn : 5 ≤ n) (hall : c.total ≤ c.arrived)
    (hfailed : c.failed = false) :
    walk b (.invocations size) Place.isDone seat n c (.waiting none) =
      (b.batch seat size.toNat ⟨.ofMode b.settings.mode, .empty⟩).run >>= fun r =>
        pure <| match r with
          | .ok work => ({ c with finished := c.finished + 1 }, afterwards b work)
          | .error f =>
            ({ c with failed := true, finished := c.finished + 1 }, .ended (.error f)) := by
  obtain ⟨n, rfl⟩ := Nat.exists_eq_add_of_le' hn
  have hwait : advance b (.invocations size) seat c (.waiting none) = pure (c, .checking) :=
    if_neg (Nat.not_lt.2 hall)
  have hcheck : advance b (.invocations size) seat c .checking = pure (c, .starting) :=
    if_neg (ne_true_of_eq_false hfailed)
  rw [walk_pure _ rfl hwait, walk_pure _ rfl hcheck, walk_settle .starting rfl rfl]
  refine bind_congr fun r => ?_
  cases r with
  | ok work =>
    have hdone : (afterwards b work).isDone = true := by
      unfold afterwards
      split <;> rfl
    dsimp only [Function.comp_apply]
    rw [walk_pure (.leaving (.ok work)) rfl rfl]
    exact walk_stop hdone
  | error f =>
    dsimp only
    rw [walk_pure (.broken f) rfl rfl, walk_pure (.leaving (.error f)) rfl rfl,
      walk_stop rfl]

/-- After all have measured a lane goes through its iteration teardown to its end. -/
theorem walk_afterwards (hn : 3 ≤ n) (hall : c.total ≤ c.finished) (work : Work) :
    walk b length Place.isOver seat n c (afterwards b work) =
      (b.threadFixture seat .teardown).run >>= fun r =>
        pure <| match r with
          | .ok _ => (c, .ended (.ok (b.harvest work)))
          | .error e => ({ c with failed := true },
              .ended (.error (b.failure (.teardown .iteration) (some seat.index) e))) := by
  have hclose : ∀ {n : Nat}, walk b length Place.isOver seat (n + 2) c (.closing work) =
      (b.threadFixture seat .teardown).run >>= fun r =>
        pure <| match r with
          | .ok _ => (c, .ended (.ok (b.harvest work)))
          | .error e => ({ c with failed := true },
              .ended (.error (b.failure (.teardown .iteration) (some seat.index) e))) := by
    intro n
    rw [walk_settle (.closing work) rfl rfl]
    refine bind_congr fun r => ?_
    cases r with
    | ok _ => exact walk_stop rfl
    | error e =>
      dsimp only
      rw [walk_pure (.failing _) rfl rfl, walk_stop rfl]
  obtain ⟨n, rfl⟩ := Nat.exists_eq_add_of_le' hn
  unfold afterwards
  split
  · -- all have finished, so there is nothing to wait for
    have hidle : advance b length seat c (.idling work) = pure (c, .closing work) :=
      congrArg (fun place => pure (c, place)) (if_neg (Nat.not_lt.2 hall))
    rw [walk_pure _ rfl hidle, hclose]
  · exact hclose

/-- What the only lane of a round does. -/
def alone (b : Bench m) (size : UInt64) (seat : Seat) : ExceptT Failure m Harvest := do
  (b.threadFixture seat .setup).adapt (b.failure (.setup .iteration) (some seat.index))
  let work ← b.batch seat size.toNat ⟨.ofMode b.settings.mode, .empty⟩
  (b.threadFixture seat .teardown).adapt (b.failure (.teardown .iteration) (some seat.index))
  return b.harvest work

end Lane

/-- The calls of a round with so many invocations of every thread. -/
def Bench.roundScript {m : Type → Type} (b : Bench m) (size : UInt64) (seats : List Seat) :
    List Call :=
  seats.flatMap (b.ownFixture .setup) ++
    (seats.flatMap (fun seat => (List.replicate size.toNat (b.around seat)).flatten) ++
      seats.flatMap (b.ownFixture .teardown))

namespace Round

section

variable {m : Type → Type} [Monad m] [LawfulMonad m] {b : Bench m} {length : IterationLength}

theorem settleAll_singleton (patience : Nat) (stop : Lane.Place → Bool) (c : Common)
    (seat : Seat) (place : Lane.Place) :
    settleAll b length patience stop ⟨c, [⟨seat, place⟩]⟩ =
      Lane.walk b length stop seat patience c place >>= fun next =>
        pure ⟨next.1, [⟨seat, next.2⟩]⟩ := by
  have hlane : ([⟨seat, place⟩] : List Lane)[0]? = some ⟨seat, place⟩ := rfl
  have hsettle : settleLane b length stop 0 patience ⟨c, [⟨seat, place⟩]⟩ =
      Lane.walk b length stop seat patience c place >>= fun next =>
        pure ⟨next.1, [⟨seat, next.2⟩]⟩ := Lane.settleLane_eq 0 ⟨c, [⟨seat, place⟩]⟩ hlane patience
  show List.foldlM _ _ [0] = _
  rw [List.foldlM_cons, hsettle, bind_assoc]
  refine bind_congr fun next => ?_
  rw [pure_bind]
  rfl

/-- **A round of one lane** runs that lane. -/
theorem run_singleton {patience : Nat} (hpatience : 5 ≤ patience) (size : UInt64) (seat : Seat) :
    run b (.invocations size) patience [seat] = do
      let harvest ← Lane.alone b size seat
      return [harvest] := by
  refine ExceptT.ext ?_
  unfold run Lane.alone
  have hbegin : ofSeats [seat] = ⟨{ total := 1 }, [⟨seat, .entering⟩]⟩ := rfl
  rw [hbegin, ExceptT.run_bind_lift, settleAll_singleton, Lane.walk_entering (by omega)]
  simp only [bind_assoc, pure_bind, ExceptT.run_bind_lift]
  simp only [ExceptT.run_bind, ExceptT.run_adapt, bind_map_left]
  refine bind_congr fun setup => ?_
  cases setup with
  | error e =>
    -- the lane goes on to the barrier and ends there
    dsimp only [Except.mapError]
    rw [settleAll_singleton, Lane.walk_refused (by omega) (Nat.le_refl 1), pure_bind, pure_bind,
      settleAll_singleton, Lane.walk_stop rfl, pure_bind, pure_bind]
    rfl
  | ok _ =>
    dsimp only [Except.mapError]
    rw [settleAll_singleton, Lane.walk_waiting hpatience (Nat.le_refl 1) rfl]
    simp only [bind_assoc, pure_bind]
    refine bind_congr fun batch => ?_
    cases batch with
    | error f =>
      -- the lane has ended, so the last part of the round finds nothing to do
      dsimp only
      rw [settleAll_singleton, Lane.walk_stop rfl, pure_bind, pure_bind]
      rfl
    | ok work =>
      dsimp only
      rw [settleAll_singleton, Lane.walk_afterwards (by omega) (Nat.le_refl 1)]
      simp only [bind_assoc, pure_bind]
      refine bind_congr fun teardown => ?_
      cases teardown with
      | error e => rfl
      | ok _ => rfl

end

variable {σ : Type} {b : Bench (StateM σ)} {strict : Prop}

/-- The only lane of a round makes its iteration setup, its invocations and its iteration
teardown. -/
theorem performs_alone (size : UInt64) (seat : Seat) :
    Performs strict (b.blame seat.index) (Lane.alone b.watched size seat)
      (b.ownFixture .setup seat ++ ((List.replicate size.toNat (b.around seat)).flatten ++
        b.ownFixture .teardown seat)) := by
  have hown : ∀ stage, Performs strict (b.blame seat.index)
      ((b.watched.threadFixture seat stage).adapt
        (b.watched.failure (stage.site .iteration) (some seat.index)))
      (b.ownFixture stage seat) := by
    intro stage
    refine (Bench.performs_threadFixture stage).adapt fun call hcall e => ?_
    unfold Bench.ownFixture at hcall
    split at hcall
    · rw [List.mem_singleton.1 hcall]
      rfl
    · cases hcall
  refine Performs.bind (hown .setup) fun _ => ?_
  refine Performs.bind (Bench.performs_batch _ _) fun work => ?_
  exact Performs.map (hown .teardown)

/-! ### Rounds in which nothing fails -/

/-- Stepping every lane in turn: each makes the calls of its script, if each does so by itself. -/
theorem soundly_settle {length : IterationLength} {stop : Lane.Place → Bool} {patience : Nat}
    {common : Nat → Common} {S T : Lane.Place → Prop} {script : Seat → List Call}
    (hlane : ∀ seat k place, S place →
      Soundly (Lane.walk b.watched length stop seat patience (common k) place) fun next made =>
        next.1 = common (k + 1) ∧ T next.2 ∧ made = script seat)
    (rest : List Lane) (hrest : ∀ lane ∈ rest, S lane.place) :
    ∀ former : List Lane, (∀ lane ∈ former, T lane.place) →
      Soundly ((List.range' former.length rest.length).foldlM
          (fun r index => settleLane b.watched length stop index patience r)
          ⟨common former.length, former ++ rest⟩) fun r made =>
        r.common = common (former.length + rest.length) ∧
          r.lanes.map Lane.seat = (former ++ rest).map Lane.seat ∧
          (∀ lane ∈ r.lanes, T lane.place) ∧ made = (rest.map Lane.seat).flatMap script := by
  induction rest with
  | nil =>
    intro former hformer
    refine Soundly.pure ⟨rfl, rfl, ?_, rfl⟩
    simpa using hformer
  | cons lane rest ih =>
    intro former hformer
    obtain ⟨hfirst, hothers⟩ := List.forall_mem_cons.1 hrest
    have hget : (former ++ lane :: rest)[former.length]? = some lane := by simp
    rw [List.length_cons, List.range'_succ, List.foldlM_cons, Lane.settleLane_eq _ _ hget,
      bind_assoc]
    refine Soundly.bind (hlane lane.seat former.length lane.place hfirst) fun next made hnext => ?_
    obtain ⟨hcommon, hplace, rfl⟩ := hnext
    -- the lane that has been stepped is now among the former ones
    have hset : (former ++ lane :: rest).set former.length ⟨lane.seat, next.2⟩ =
        former ++ [⟨lane.seat, next.2⟩] ++ rest := by simp
    have hlength : (former ++ [(⟨lane.seat, next.2⟩ : Lane)]).length = former.length + 1 := by simp
    have hformer' : ∀ l ∈ former ++ [⟨lane.seat, next.2⟩], T l.place := by
      refine List.forall_mem_append.2 ⟨hformer, fun l hl => ?_⟩
      rw [List.mem_singleton.1 hl]
      exact hplace
    have hnext := ih hothers (former ++ [⟨lane.seat, next.2⟩]) hformer'
    rw [hlength] at hnext
    rw [pure_bind, hset, hcommon]
    refine hnext.mono fun r made hr => ?_
    obtain ⟨hend, hseats, hplaces, rfl⟩ := hr
    refine ⟨?_, ?_, hplaces, rfl⟩
    · rw [hend]
      congr 1
      omega
    · rw [hseats]
      simp

theorem soundly_settleAll {length : IterationLength} {stop : Lane.Place → Bool} {patience : Nat}
    {common : Nat → Common} {S T : Lane.Place → Prop} {script : Seat → List Call}
    (hlane : ∀ seat k place, S place →
      Soundly (Lane.walk b.watched length stop seat patience (common k) place) fun next made =>
        next.1 = common (k + 1) ∧ T next.2 ∧ made = script seat)
    {lanes : List Lane} (hlanes : ∀ lane ∈ lanes, S lane.place) :
    Soundly (settleAll b.watched length patience stop ⟨common 0, lanes⟩) fun r made =>
      r.common = common lanes.length ∧ r.lanes.map Lane.seat = lanes.map Lane.seat ∧
        (∀ lane ∈ r.lanes, T lane.place) ∧ made = (lanes.map Lane.seat).flatMap script := by
  have hall := soundly_settle hlane lanes hlanes [] fun _ h => nomatch h
  rw [List.length_nil, Nat.zero_add, List.nil_append, ← List.range_eq_range'] at hall
  exact hall

/-- Where a lane stands that has measured without a failure. -/
def HasMeasured (b : Bench (StateM σ)) (place : Lane.Place) : Prop :=
  ∃ work, place = Lane.afterwards b.watched work

/-- Where a lane stands that has ended without a failure. -/
def HasEnded (place : Lane.Place) : Prop := ∃ harvest, place = .ended (.ok harvest)

theorem soundly_entering {length : IterationLength} {patience : Nat} (hpatience : 5 ≤ patience)
    (total : Nat) (seat : Seat) (k : Nat) (place : Lane.Place) (hplace : place = .entering) :
    Soundly (Lane.walk b.watched length Lane.Place.isWaiting seat patience
        { total, arrived := k } place) fun next made =>
      next.1 = { total, arrived := k + 1 } ∧ next.2 = .waiting none ∧
        made = b.ownFixture .setup seat := by
  subst hplace
  rw [Lane.walk_entering (by omega)]
  have hown : Performs True _ (b.watched.threadFixture seat .setup) (b.ownFixture .setup seat) :=
    Bench.performs_threadFixture .setup
  refine Soundly.bind hown.soundly ?_
  rintro r made ⟨⟨_, rfl⟩, rfl⟩
  exact Soundly.pure ⟨rfl, rfl, List.append_nil _⟩

theorem soundly_waiting {size : UInt64} {patience : Nat} (hpatience : 5 ≤ patience) (total : Nat)
    (seat : Seat) (k : Nat) (place : Lane.Place) (hplace : place = .waiting none) :
    Soundly (Lane.walk b.watched (.invocations size) Lane.Place.isDone seat patience
        { total, arrived := total, finished := k } place) fun next made =>
      next.1 = { total, arrived := total, finished := k + 1 } ∧ HasMeasured b next.2 ∧
        made = (List.replicate size.toNat (b.around seat)).flatten := by
  subst hplace
  rw [Lane.walk_waiting hpatience (Nat.le_refl total) rfl]
  have hbatch : Performs True _ (b.watched.batch seat size.toNat ⟨.ofMode b.settings.mode, .empty⟩)
      (List.replicate size.toNat (b.around seat)).flatten := Bench.performs_batch _ _
  refine Soundly.bind hbatch.soundly ?_
  rintro r made ⟨⟨work, rfl⟩, rfl⟩
  exact Soundly.pure ⟨rfl, ⟨work, rfl⟩, List.append_nil _⟩

theorem soundly_afterwards {length : IterationLength} {patience : Nat} (hpatience : 5 ≤ patience)
    (total : Nat) (seat : Seat) (place : Lane.Place) (hplace : HasMeasured b place) :
    Soundly (Lane.walk b.watched length Lane.Place.isOver seat patience
        { total, arrived := total, finished := total } place) fun next made =>
      next.1 = { total, arrived := total, finished := total } ∧ HasEnded next.2 ∧
        made = b.ownFixture .teardown seat := by
  obtain ⟨work, rfl⟩ := hplace
  rw [Lane.walk_afterwards (by omega) (Nat.le_refl total)]
  have hown : Performs True _ (b.watched.threadFixture seat .teardown)
      (b.ownFixture .teardown seat) :=
    Bench.performs_threadFixture .teardown
  refine Soundly.bind hown.soundly ?_
  rintro r made ⟨⟨_, rfl⟩, rfl⟩
  exact Soundly.pure ⟨rfl, ⟨_, rfl⟩, List.append_nil _⟩

/-- Lanes that have all ended without a failure bring something home. -/
theorem mapM_outcome {m : Type → Type} [Monad m] {b : Bench m} {lanes : List Lane}
    (h : ∀ lane ∈ lanes, HasEnded lane.place) :
    ∃ harvests, lanes.mapM (outcome b) = .ok harvests := by
  induction lanes with
  | nil => exact ⟨[], rfl⟩
  | cons lane lanes ih =>
    obtain ⟨⟨harvest, hplace⟩, hothers⟩ := List.forall_mem_cons.1 h
    obtain ⟨harvests, hharvests⟩ := ih hothers
    have hlane : outcome b lane = .ok harvest := by rw [outcome, hplace]
    exact ⟨harvest :: harvests, by rw [List.mapM_cons, hlane, hharvests]; rfl⟩

/-- A round in which nothing fails: all lanes are set up, then all measure, then all are torn
down. -/
theorem soundly_run {patience : Nat} (hpatience : 5 ≤ patience) (size : UInt64)
    (seats : List Seat) :
    Soundly (run b.watched (.invocations size) patience seats).run fun r made =>
      (∃ harvests, r = .ok harvests) ∧ made = b.roundScript size seats := by
  unfold run
  simp only [ExceptT.run_bind_lift]
  have hbegin : ofSeats seats = ⟨{ total := seats.length, arrived := 0 },
      seats.map fun seat => ⟨seat, .entering⟩⟩ := rfl
  have hseats : (seats.map fun seat => (⟨seat, .entering⟩ : Lane)).map Lane.seat = seats := by
    simp [Function.comp_def]
  have hentering : ∀ lane ∈ seats.map fun seat => (⟨seat, .entering⟩ : Lane),
      lane.place = .entering := by simp
  rw [hbegin]
  refine Soundly.bind (soundly_settleAll (S := (· = .entering)) (T := (· = .waiting none))
    (soundly_entering hpatience seats.length) hentering) ?_
  rintro ⟨common, lanes⟩ made ⟨hcommon, hlanes, hplaces, rfl⟩
  rw [hseats] at hlanes ⊢
  have hlength : lanes.length = seats.length := by rw [← hlanes, List.length_map]
  rw [List.length_map] at hcommon
  dsimp only at hcommon hlanes hplaces ⊢
  subst hcommon
  refine Soundly.bind (soundly_settleAll (S := (· = .waiting none)) (T := HasMeasured b)
    (soundly_waiting hpatience seats.length) hplaces) ?_
  rintro ⟨common, lanes'⟩ made ⟨hcommon, hlanes', hplaces', rfl⟩
  rw [hlanes] at hlanes' ⊢
  rw [hlength] at hcommon
  dsimp only at hcommon hlanes' hplaces' ⊢
  subst hcommon
  refine Soundly.bind (soundly_settleAll (S := HasMeasured b) (T := HasEnded)
    (fun seat _ => soundly_afterwards hpatience seats.length seat) hplaces') ?_
  rintro ⟨common, lanes''⟩ made ⟨-, -, hplaces'', rfl⟩
  rw [hlanes']
  obtain ⟨harvests, hharvests⟩ := mapM_outcome (b := b.watched) hplaces''
  dsimp only at hharvests ⊢
  rw [hharvests]
  refine Soundly.pure ⟨⟨harvests, rfl⟩, ?_⟩
  rw [List.append_nil]
  rfl

/-- **The calls of a round are those of its script.**  A round of one lane stops at the first call
that goes wrong. -/
theorem performs_run {patience index : Nat} (hpatience : 5 ≤ patience) (size : UInt64)
    {seats : List Seat} (halone : strict → ∃ seat, seats = [seat] ∧ seat.index = index) :
    Performs strict (b.blame index) (run b.watched (.invocations size) patience seats)
      (b.roundScript size seats) := by
  by_cases hstrict : strict
  · obtain ⟨seat, rfl, rfl⟩ := halone hstrict
    have hscript : b.roundScript size [seat] = b.ownFixture .setup seat ++
        ((List.replicate size.toNat (b.around seat)).flatten ++ b.ownFixture .teardown seat) := by
      simp [Bench.roundScript]
    rw [run_singleton hpatience, hscript]
    exact Performs.map (performs_alone size seat)
  · exact Performs.of_soundly hstrict (soundly_run hpatience size seats)

end Round

end Microbench
