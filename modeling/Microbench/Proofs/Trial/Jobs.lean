import Microbench.Proofs.Trial.Acceptance

/-!
# Any number of jobs

A campaign with one job runs its trials in turn and settles each of them at once.  With more
jobs the trials are put into a pool, where threads take them up and end them in whatever
order it happens; what went well is announced at once, and all are settled in the end.  Both
ways lead to the same results or to the same failure.

## Main definitions

* `Attempt` — a trial with what becomes of it.
* `Campaign.Ends` — trials that are run one after the other become what is said of them.
* `Pool`, `Pool.Moves` — trials that run at the same time.
* `Attempt.verdict` — what a campaign has to give.
* `Campaign.Settles` — what is promised of a conclusion.

## Main results

* `Campaign.run_runInTurn`, `Campaign.run_runTogether` — the trials of a campaign.
* `Pool.Sound.move` — what every move in the pool keeps.
* `Pool.progress`, `Pool.Moves.left_lt` — the pool goes on until all trials have ended.
* `Campaign.run_agrees` — **the number of jobs does not matter.**
-/

namespace Microbench

open Campaign (Conclusion Ran isFatal settle settleAll breakdown? concludeAll)

/-- A trial with what becomes of it. -/
abbrev Attempt := Spec × Except TrialError TrialResult

namespace Attempt

/-- What becomes of the trial, as the campaign gets to know it. -/
def ran (a : Attempt) : Ran := (a.1, a.2.mapError .error)

/-- The failure of a trial, if it ends the campaign. -/
def fatal? (a : Attempt) : Option TrialError :=
  match a.2 with
  | .ok _ => none
  | .error e => if isFatal a.1 then some e else none

/-- The result of a trial that does not end the campaign; a failed one has only its failure. -/
def result (a : Attempt) : TrialResult :=
  match a.2 with
  | .ok t => t
  | .error e => .failed a.1 e

/-- The result of a trial that went well. -/
def success? (a : Attempt) : Option TrialResult := a.2.toOption

/-- The result of a trial that has failed. -/
def failure? (a : Attempt) : Option TrialResult :=
  match a.2 with
  | .ok _ => none
  | .error e => some (.failed a.1 e)

/-- What a campaign has to give: the first failure that ends it, or the results of all trials. -/
def verdict (attempts : List Attempt) : Except Halt (List TrialResult) :=
  match attempts.findSome? fatal? with
  | some e => .error (.error e)
  | none => .ok (attempts.map result)

theorem verdict_cons (a : Attempt) (rest : List Attempt) :
    verdict (a :: rest) =
      match a.fatal? with
      | some e => .error (.error e)
      | none => (verdict rest).map (a.result :: ·) := by
  rw [verdict, List.findSome?_cons]
  cases a.fatal? with
  | some e => rfl
  | none =>
    rw [verdict]
    cases rest.findSome? fatal? <;> rfl

theorem settle_ran (a : Attempt) :
    settle a.ran.1 a.ran.2 =
      match a.fatal? with
      | some e => .error (.error e)
      | none => .ok a.result := by
  obtain ⟨s, _ | t⟩ := a
  · cases h : isFatal s <;> simp [ran, fatal?, result, settle, Except.mapError, h]
  · rfl

/-- A trial has gone well or has failed. -/
theorem perm_success_failure (attempts : List Attempt) :
    (attempts.filterMap success? ++ attempts.filterMap failure?).Perm (attempts.map result) := by
  induction attempts with
  | nil => exact .refl _
  | cons a rest ih =>
    obtain ⟨s, e | t⟩ := a
    · exact List.perm_middle.trans (ih.cons _)
    · exact ih.cons _

end Attempt

namespace Campaign

open Attempt (verdict)

/-! ### Settling -/

theorem breakdown?_ran (attempts : List Attempt) :
    breakdown? (attempts.map Attempt.ran) = none := by
  rw [breakdown?, List.findSome?_eq_none_iff]
  intro o ho
  obtain ⟨⟨s, e | t⟩, -, rfl⟩ := List.mem_map.1 ho <;> rfl

/-- Of trials that have all been run, the first that ends the campaign decides; those that have
failed are announced up to it. -/
theorem settleAll_ran (attempts : List Attempt) :
    settleAll (attempts.map Attempt.ran) =
      ⟨verdict attempts, (attempts.takeWhile (·.fatal?.isNone)).filterMap Attempt.failure?⟩ := by
  induction attempts with
  | nil => rfl
  | cons a rest ih =>
    rw [List.map_cons, settleAll, Attempt.settle_ran, Attempt.verdict_cons, ih]
    cases hfatal : a.fatal? with
    | some e =>
      rw [List.takeWhile_cons_of_neg (by rw [hfatal]; exact Bool.false_ne_true)]
      rfl
    | none =>
      rw [List.takeWhile_cons_of_pos (by rw [hfatal]; rfl)]
      obtain ⟨s, e | t⟩ := a <;> rfl

/-- Without a failure that ends the campaign, all are among those up to it. -/
theorem takeWhile_of_verdict {attempts : List Attempt} {results : List TrialResult}
    (h : verdict attempts = .ok results) :
    attempts.takeWhile (·.fatal?.isNone) = attempts ∧ attempts.map Attempt.result = results := by
  unfold verdict at h
  cases hfatal : attempts.findSome? Attempt.fatal? with
  | some e =>
    rw [hfatal] at h
    cases h
  | none =>
    rw [hfatal] at h
    refine ⟨List.takeWhile_eq_self_iff.2 fun a ha => ?_, Except.ok.inj h⟩
    rw [List.findSome?_eq_none_iff.1 hfatal a ha]
    rfl

/-- What is promised of a conclusion: it is the verdict, and if that are results, each of them has
been announced once. -/
structure Settles (attempts : List Attempt) (conclusion : Conclusion) : Prop where
  /-- The results in the order of the trials, or the first failure that ends the campaign. -/
  outcome : conclusion.outcome = verdict attempts
  /-- Every result is announced once. -/
  announced : ∀ results, conclusion.outcome = .ok results → conclusion.announced.Perm results

/-- Those that went well were announced in some order; the failed ones follow when all are
settled. -/
theorem settles_of_announced {attempts : List Attempt} {announced : List TrialResult}
    (h : announced.Perm (attempts.filterMap Attempt.success?)) :
    Settles attempts ⟨(settleAll (attempts.map Attempt.ran)).outcome,
      announced ++ (settleAll (attempts.map Attempt.ran)).announced⟩ := by
  rw [settleAll_ran]
  refine ⟨rfl, fun results hresults => ?_⟩
  obtain ⟨hall, rfl⟩ := takeWhile_of_verdict hresults
  rw [hall]
  exact (h.append_right _).trans (Attempt.perm_success_failure attempts)

/-! ### The trials of a campaign -/

section Running

variable {σ : Type} {c : Campaign (StateM σ)} {world world' : σ} {attempts : List Attempt}

/-- Run one after the other from a world on, trials become what is said of them. -/
inductive Ends (c : Campaign (StateM σ)) : σ → List Attempt → σ → Prop
  /-- There is none. -/
  | none {world : σ} : Ends c world [] world
  /-- The first one, and the others from the world that it leaves. -/
  | next {a : Attempt} {rest : List Attempt} {world world₁ world₂ : σ}
      (ran : (c.trial a.1).run.run world = (a.ran.2, world₁)) (later : Ends c world₁ rest world₂) :
      Ends c world (a :: rest) world₂

/-- Whether a campaign runs its trials in turn. -/
def InTurn (jobs : Nat) (attempts : List Attempt) : Prop := jobs ≤ 1 ∨ attempts.length ≤ 1

instance (jobs : Nat) (attempts : List Attempt) : Decidable (InTurn jobs attempts) :=
  inferInstanceAs (Decidable (_ ∨ _))

/-- The trials up to the first that ends the campaign, and with it. -/
def upToFatal : List Attempt → List Attempt
  | [] => []
  | a :: rest => if a.fatal?.isSome then [a] else a :: upToFatal rest

/-- The trials that a campaign gets to: all that run at the same time, but of those that are run in
turn none after one that ends the campaign. -/
def reached (jobs : Nat) (attempts : List Attempt) : List Attempt :=
  if InTurn jobs attempts then upToFatal attempts else attempts

/-- **Trials in turn** are announced in turn. -/
theorem run_runInTurn (h : c.Ends world (upToFatal attempts) world') :
    (c.runInTurn (attempts.map Prod.fst)).run world =
      (⟨verdict attempts, (attempts.takeWhile (·.fatal?.isNone)).map Attempt.result⟩, world') := by
  induction attempts generalizing world with
  | nil =>
    cases h
    rfl
  | cons a rest ih =>
    have hsettled := a.settle_ran
    rw [upToFatal] at h
    rw [List.map_cons, runInTurn, run_bind, Attempt.verdict_cons]
    cases hfatal : a.fatal? with
    | some e =>
      rw [hfatal] at h hsettled
      cases (show c.Ends world [a] world' from h) with
      | next ran later =>
      cases later
      rw [ran, show settle a.1 a.ran.2 = .error (.error e) from hsettled,
        List.takeWhile_cons_of_neg (by rw [hfatal]; exact Bool.false_ne_true)]
      rfl
    | none =>
      rw [hfatal] at h hsettled
      cases (show c.Ends world (a :: upToFatal rest) world' from h) with
      | next ran later =>
      rw [ran, show settle a.1 a.ran.2 = .ok a.result from hsettled,
        List.takeWhile_cons_of_pos (by rw [hfatal]; rfl)]
      dsimp only
      rw [run_bind, ih later]
      rfl

/-- **Trials at the same time** are all run, and then concluded from together. -/
theorem run_runTogether (h : c.Ends world attempts world') :
    (c.runTogether (attempts.map Prod.fst)).run world =
      (concludeAll (attempts.map Attempt.ran), world') := by
  have hall : ((attempts.map Prod.fst).mapM fun s => (return (s, ← (c.trial s).run) :
      StateM σ Ran)).run world = (attempts.map Attempt.ran, world') := by
    induction h with
    | none => rfl
    | @next a rest world world₁ world₂ ran later ih =>
      rw [List.map_cons, List.mapM_cons, bind_assoc, run_bind, ran, pure_bind, run_bind, ih]
      rfl
  unfold runTogether
  rw [run_map, hall]

end Running

end Campaign

/-! ### The pool -/

/-- How far a trial in the pool is. -/
inductive Pool.Status
  /-- Nobody has taken it up. -/
  | waiting
  /-- A thread is at it. -/
  | running
  /-- It has ended. -/
  | ended (outcome : Except TrialError TrialResult)

namespace Pool.Status

def isRunning : Status → Bool
  | running => true
  | _ => false

/-- What has become of a trial that has ended. -/
def outcome? : Status → Option (Except TrialError TrialResult)
  | ended outcome => some outcome
  | _ => none

/-- The result of a trial that has ended well. -/
def success? (x : Status) : Option TrialResult := x.outcome?.bind Except.toOption

/-- How many moves a trial still takes. -/
def left : Status → Nat
  | waiting => 2
  | running => 1
  | ended _ => 0

end Pool.Status

/-- Trials that run at the same time. -/
structure Pool where
  /-- How far each trial is, in the order of the trials. -/
  places : List Pool.Status
  /-- The results that have been announced, in the order of their announcement. -/
  announced : List TrialResult

namespace Pool

variable {attempts : List Attempt} {threads : Nat} {p p' : Pool}

/-- A pool of so many trials that nobody has taken up. -/
def start (n : Nat) : Pool := ⟨List.replicate n .waiting, []⟩

/-- The moves of a pool of so many threads. -/
inductive Moves (attempts : List Attempt) (threads : Nat) : Pool → Pool → Prop
  /-- A thread that has nothing to do takes up a trial. -/
  | takesUp {p : Pool} {i : Nat} (waits : p.places[i]? = some .waiting)
      (free : p.places.countP Status.isRunning < threads) :
      Moves attempts threads p { p with places := p.places.set i .running }
  /-- A trial ends; if it has gone well that is announced at once. -/
  | ends {p : Pool} {i : Nat} {a : Attempt} (runs : p.places[i]? = some .running)
      (becomes : attempts[i]? = some a) :
      Moves attempts threads p
        ⟨p.places.set i (.ended a.2), p.announced ++ a.success?.toList⟩

/-- The pools that come of these trials. -/
def Reaches (attempts : List Attempt) (threads : Nat) (p : Pool) : Prop :=
  Relation.ReflTransGen (Moves attempts threads) (start attempts.length) p

/-- What a pool gives when all its trials have ended: they are settled in the order of the trials,
whatever the order in which they have ended. -/
def conclude (specs : List Spec) (p : Pool) : Option Conclusion :=
  (p.places.mapM Status.outcome?).map fun outcomes =>
    let settled := settleAll (specs.zipWith (fun s outcome => Attempt.ran (s, outcome)) outcomes)
    ⟨settled.outcome, p.announced ++ settled.announced⟩

/-- How many moves a pool has left. -/
def left (p : Pool) : Nat := (p.places.map Status.left).sum

/-- A thread takes up the trial between the others. -/
theorem Moves.takesUp_around {before after : List Status} {announced : List TrialResult}
    (free : (before ++ .waiting :: after).countP Status.isRunning < threads) :
    Moves attempts threads ⟨before ++ .waiting :: after, announced⟩
      ⟨before ++ .running :: after, announced⟩ := by
  have hmove : Moves attempts threads ⟨before ++ .waiting :: after, announced⟩
      ⟨(before ++ .waiting :: after).set before.length .running, announced⟩ :=
    .takesUp (by simp) free
  simpa using hmove

/-- The trial between the others ends. -/
theorem Moves.ends_around {before after : List Status} {announced : List TrialResult}
    {a : Attempt} (becomes : attempts[before.length]? = some a) :
    Moves attempts threads ⟨before ++ .running :: after, announced⟩
      ⟨before ++ .ended a.2 :: after, announced ++ a.success?.toList⟩ := by
  have hmove : Moves attempts threads ⟨before ++ .running :: after, announced⟩
      ⟨(before ++ .running :: after).set before.length (.ended a.2),
        announced ++ a.success?.toList⟩ :=
    .ends (by simp) becomes
  simpa using hmove

/-- The places of trials that have all ended. -/
def allEnded (attempts : List Attempt) : List Status := attempts.map fun a => .ended a.2

/-! ### What the moves keep -/

/-- An entry of a list that is replaced, and what is around it. -/
theorem exists_around {α : Type} {l : List α} {i : Nat} {a : α} (h : l[i]? = some a) :
    ∃ before after, l = before ++ a :: after ∧ ∀ b, l.set i b = before ++ b :: after := by
  obtain ⟨hi, rfl⟩ := List.getElem?_eq_some_iff.1 h
  refine ⟨l.take i, l.drop (i + 1), ?_,
    fun b => List.set_eq_take_append_cons_drop.trans (if_pos hi)⟩
  rw [List.getElem_cons_drop, List.take_append_drop]

/-- **Every move uses up one of the moves that are left.** -/
theorem Moves.left_lt (h : Moves attempts threads p p') : p'.left < p.left := by
  cases h with
  | takesUp waits free =>
    obtain ⟨before, after, hplaces, hset⟩ := exists_around waits
    dsimp only [left]
    rw [hset, hplaces]
    simp only [List.map_append, List.map_cons, List.sum_append, List.sum_cons, Status.left]
    omega
  | ends runs becomes =>
    obtain ⟨before, after, hplaces, hset⟩ := exists_around runs
    dsimp only [left]
    rw [hset, hplaces]
    simp only [List.map_append, List.map_cons, List.sum_append, List.sum_cons, Status.left]
    omega

/-- The results in the places around one and in it. -/
theorem filterMap_around (before after : List Status) (x : Status) :
    (before ++ x :: after).filterMap Status.success? =
      before.filterMap Status.success? ++
        (x.success?.toList ++ after.filterMap Status.success?) := by
  rw [List.filterMap_append, List.filterMap_cons]
  cases x.success? <;> rfl

/-- What holds in every pool that comes of these trials. -/
structure Sound (attempts : List Attempt) (p : Pool) : Prop where
  /-- There is a place for every trial. -/
  length : p.places.length = attempts.length
  /-- What has become of a trial is in its place. -/
  faithful : ∀ (i : Nat) outcome, p.places[i]? = some (.ended outcome) →
    attempts[i]?.map Prod.snd = some outcome
  /-- Those that have ended well are announced, each once. -/
  announced : p.announced.Perm (p.places.filterMap Status.success?)

theorem sound_start (attempts : List Attempt) : Sound attempts (start attempts.length) where
  length := List.length_replicate
  faithful i outcome h := by
    have := List.eq_of_mem_replicate (List.mem_of_getElem? h)
    cases this
  announced := by
    have hnone : (List.replicate attempts.length Status.waiting).filterMap Status.success? = [] :=
      List.filterMap_eq_nil_iff.2 fun x hx => by
        rw [List.eq_of_mem_replicate hx]
        rfl
    exact hnone ▸ .refl _

/-- **What every move keeps.** -/
theorem Sound.move (h : Sound attempts p) (hmove : Moves attempts threads p p') :
    Sound attempts p' := by
  cases hmove with
  | @takesUp i waits free =>
    obtain ⟨before, after, hplaces, hset⟩ := exists_around waits
    refine ⟨List.length_set.trans h.length, fun j outcome hj => ?_, ?_⟩
    · rw [List.getElem?_set] at hj
      split at hj
      · split at hj <;> cases hj
      · exact h.faithful j outcome hj
    · have hsame := h.announced
      rw [hplaces, filterMap_around] at hsame
      dsimp only
      rw [hset, filterMap_around]
      exact hsame
  | @ends i a runs becomes =>
    obtain ⟨before, after, hplaces, hset⟩ := exists_around runs
    refine ⟨List.length_set.trans h.length, fun j outcome hj => ?_, ?_⟩
    · rw [List.getElem?_set] at hj
      split at hj
      · next hij =>
        subst hij
        split at hj
        · cases hj
          rw [becomes]
          rfl
        · cases hj
      · exact h.faithful j outcome hj
    · have hsame : p.announced.Perm (before.filterMap Status.success? ++
          after.filterMap Status.success?) := by
        have hthere := h.announced
        rw [hplaces, filterMap_around] at hthere
        exact hthere
      dsimp only
      rw [hset, filterMap_around]
      refine (hsame.append_right a.success?.toList).trans ?_
      rw [List.append_assoc]
      exact List.perm_append_comm.append_left _

theorem Reaches.sound (h : Reaches attempts threads p) : Sound attempts p := by
  induction h with
  | refl => exact sound_start attempts
  | tail _ hmove ih => exact ih.move hmove

/-- **The pool goes on** until all trials have ended. -/
theorem progress (hthreads : 0 < threads) (h : Sound attempts p) :
    (∃ p', Moves attempts threads p p') ∨ p.places = allEnded attempts := by
  by_cases hruns : ∃ i : Nat, p.places[i]? = some .running
  · obtain ⟨i, runs⟩ := hruns
    have hi : i < attempts.length := h.length ▸ (List.getElem?_eq_some_iff.1 runs).1
    exact .inl ⟨_, .ends runs (List.getElem?_eq_getElem hi)⟩
  by_cases hwaits : ∃ i : Nat, p.places[i]? = some .waiting
  · obtain ⟨i, waits⟩ := hwaits
    -- nobody is at work, so there is a free thread
    have hfree : p.places.countP Status.isRunning = 0 := List.countP_eq_zero.2 fun x hx => by
      obtain ⟨j, hj⟩ := List.mem_iff_getElem?.1 hx
      cases x with
      | running => exact absurd ⟨j, hj⟩ hruns
      | waiting => exact Bool.false_ne_true
      | ended outcome => exact Bool.false_ne_true
    exact .inl ⟨_, .takesUp waits (hfree ▸ hthreads)⟩
  · refine .inr (List.ext_getElem? fun i => ?_)
    rw [allEnded, List.getElem?_map]
    cases hi : p.places[i]? with
    | none =>
      have hend : attempts.length ≤ i := h.length ▸ List.getElem?_eq_none_iff.1 hi
      rw [List.getElem?_eq_none hend]
      rfl
    | some x =>
      cases x with
      | running => exact absurd ⟨i, hi⟩ hruns
      | waiting => exact absurd ⟨i, hi⟩ hwaits
      | ended outcome =>
        obtain ⟨a, ha, rfl⟩ := Option.map_eq_some_iff.1 (h.faithful i outcome hi)
        rw [ha]
        rfl

/-! ### How it ends -/

theorem mapM_allEnded (attempts : List Attempt) :
    (allEnded attempts).mapM Status.outcome? = some (attempts.map Prod.snd) := by
  induction attempts with
  | nil => rfl
  | cons a rest ih =>
    rw [allEnded, List.map_cons, List.mapM_cons, show (rest.map _).mapM _ = _ from ih]
    rfl

theorem conclude_of_allEnded (h : p.places = allEnded attempts) :
    p.conclude (attempts.map Prod.fst) =
      some ⟨(settleAll (attempts.map Attempt.ran)).outcome,
        p.announced ++ (settleAll (attempts.map Attempt.ran)).announced⟩ := by
  have hran : (attempts.map Prod.fst).zipWith (fun s outcome => Attempt.ran (s, outcome))
      (attempts.map Prod.snd) = attempts.map Attempt.ran := by
    rw [List.zipWith_map, List.zipWith_self]
  rw [conclude, h, mapM_allEnded, Option.map_some, hran]

/-- **Whatever the order in which the trials have ended**, the pool gives what it has to. -/
theorem settles_of_reaches (h : Reaches attempts threads p)
    (hended : p.places = allEnded attempts) :
    ∃ conclusion, p.conclude (attempts.map Prod.fst) = some conclusion ∧
      Campaign.Settles attempts conclusion := by
  refine ⟨_, conclude_of_allEnded hended, Campaign.settles_of_announced ?_⟩
  have hannounced := h.sound.announced
  have hsuccesses : (allEnded attempts).filterMap Status.success? =
      attempts.filterMap Attempt.success? := List.filterMap_map
  rwa [hended, hsuccesses] at hannounced

/-- A pool whose first trials have ended in their order, while nobody has taken up the others. -/
def inOrder (ended others : List Attempt) : Pool :=
  ⟨allEnded ended ++ others.map fun _ => .waiting, ended.filterMap Attempt.success?⟩

/-- The trials may end in their order. -/
theorem reaches_inOrder (hthreads : 0 < threads) (ended others : List Attempt) :
    Reaches (ended ++ others) threads (inOrder ended others) := by
  induction ended using List.reverseRecOn generalizing others with
  | nil =>
    have hstart : inOrder [] others = start ([] ++ others).length := by
      rw [inOrder, start, List.nil_append, ← List.map_const']
      rfl
    rw [hstart]
    exact .refl
  | append_singleton ended a ih =>
    rw [List.append_assoc]
    have hfree : (allEnded ended ++ Status.waiting :: others.map fun _ => .waiting).countP
        Status.isRunning = 0 := by
      refine List.countP_eq_zero.2 fun x hx => ?_
      simp only [allEnded, List.mem_append, List.mem_cons, List.mem_map] at hx
      rcases hx with ⟨_, _, rfl⟩ | rfl | ⟨_, _, rfl⟩ <;> exact Bool.false_ne_true
    -- one thread takes the next trial up, and ends it
    have htakes : Moves (ended ++ a :: others) threads (inOrder ended (a :: others))
        ⟨allEnded ended ++ .running :: others.map fun _ => .waiting,
          ended.filterMap Attempt.success?⟩ := Moves.takesUp_around (hfree ▸ hthreads)
    have hends : Moves (ended ++ a :: others) threads
        ⟨allEnded ended ++ .running :: others.map fun _ => .waiting,
          ended.filterMap Attempt.success?⟩
        ⟨allEnded ended ++ .ended a.2 :: others.map fun _ => .waiting,
          ended.filterMap Attempt.success? ++ a.success?.toList⟩ :=
      Moves.ends_around (by simp [allEnded])
    have hlast : inOrder (ended ++ [a]) others =
        ⟨allEnded ended ++ .ended a.2 :: others.map fun _ => .waiting,
          ended.filterMap Attempt.success? ++ a.success?.toList⟩ := by
      have hsuccess : [a].filterMap Attempt.success? = a.success?.toList := by
        rw [List.filterMap_cons]
        cases a.success? <;> rfl
      rw [inOrder, List.filterMap_append, hsuccess]
      simp [allEnded]
    rw [hlast]
    exact ((ih (a :: others)).tail htakes).tail hends

end Pool

namespace Campaign

open Attempt (verdict)

variable {σ : Type} {c : Campaign (StateM σ)} {world world' : σ} {attempts : List Attempt}
  {jobs : Nat}

/-! ### One job and many -/

theorem run_eq (c : Campaign (StateM σ)) (attempts : List Attempt) (jobs : Nat) :
    c.run (attempts.map Prod.fst) jobs =
      if InTurn jobs attempts then c.runInTurn (attempts.map Prod.fst)
      else c.runTogether (attempts.map Prod.fst) := by
  rw [run, List.length_map]
  rfl

/-- Trials that are run in turn. -/
theorem run_of_inTurn (hturn : InTurn jobs attempts)
    (h : c.Ends world (reached jobs attempts) world') :
    ∃ conclusion, (c.run (attempts.map Prod.fst) jobs).run world = (conclusion, world') ∧
      Settles attempts conclusion ∧
      ∀ results, conclusion.outcome = .ok results → conclusion.announced = results := by
  rw [reached, if_pos hturn] at h
  have hannounced : ∀ results, verdict attempts = .ok results →
      (attempts.takeWhile (·.fatal?.isNone)).map Attempt.result = results := by
    intro results hresults
    obtain ⟨hall, rfl⟩ := takeWhile_of_verdict hresults
    rw [hall]
  rw [run_eq, if_pos hturn]
  exact ⟨_, run_runInTurn h, ⟨rfl, fun results h => .of_eq (hannounced results h)⟩, hannounced⟩

/-- Trials that are run at the same time: they may as well have ended in the order of the trials. -/
theorem run_of_not_inTurn (hturn : ¬ InTurn jobs attempts)
    (h : c.Ends world (reached jobs attempts) world') :
    ∃ conclusion p, (c.run (attempts.map Prod.fst) jobs).run world = (conclusion, world') ∧
      Pool.Reaches attempts (min jobs attempts.length) p ∧ p.places = Pool.allEnded attempts ∧
      p.conclude (attempts.map Prod.fst) = some conclusion := by
  rw [reached, if_neg hturn] at h
  have hthreads : 0 < min jobs attempts.length := by
    unfold InTurn at hturn
    omega
  have hreaches := Pool.reaches_inOrder hthreads attempts []
  rw [List.append_nil] at hreaches
  have hended : (Pool.inOrder attempts []).places = Pool.allEnded attempts := List.append_nil _
  have hannounced : (attempts.map Attempt.ran).filterMap (fun o => o.2.toOption) =
      attempts.filterMap Attempt.success? := by
    rw [List.filterMap_map]
    refine List.filterMap_congr fun a _ => ?_
    obtain ⟨s, e | t⟩ := a <;> rfl
  refine ⟨_, _, ?_, hreaches, hended, Pool.conclude_of_allEnded hended⟩
  rw [run_eq, if_neg hturn, run_runTogether h, concludeAll, breakdown?_ran, hannounced]
  rfl

/-- **The number of jobs does not matter.**  Whatever the trials of a campaign become, one job and
many jobs, from whatever world on, give the verdict on them: the results of all trials in their
order, or the first failure, in their order, that is to end the campaign.  Where there are results
each of them has been announced once, in their order if the trials were run in turn.  Trials that
run at the same time may be taken up by any number of threads and end in any order: a pool of them
goes on until all have ended, and then it gives that same verdict. -/
theorem run_agrees (c : Campaign (StateM σ)) (attempts : List Attempt) :
    (∀ jobs world world', c.Ends world (reached jobs attempts) world' →
      ∃ conclusion, (c.run (attempts.map Prod.fst) jobs).run world = (conclusion, world') ∧
        Settles attempts conclusion ∧
        if InTurn jobs attempts then
          ∀ results, conclusion.outcome = .ok results → conclusion.announced = results
        else ∃ p, Pool.Reaches attempts (min jobs attempts.length) p ∧
          p.conclude (attempts.map Prod.fst) = some conclusion) ∧
    ∀ threads p, 0 < threads → Pool.Reaches attempts threads p →
      (∀ p', Pool.Moves attempts threads p p' → p'.left < p.left) ∧
      ((∃ p', Pool.Moves attempts threads p p') ∨
        ∃ conclusion, p.conclude (attempts.map Prod.fst) = some conclusion ∧
          Settles attempts conclusion) := by
  constructor
  · intro jobs world world' hends
    by_cases hturn : InTurn jobs attempts
    · obtain ⟨conclusion, hrun, hsettles, hannounced⟩ := run_of_inTurn hturn hends
      refine ⟨conclusion, hrun, hsettles, ?_⟩
      rwa [if_pos hturn]
    · obtain ⟨conclusion, p, hrun, hreaches, hended, hconclude⟩ := run_of_not_inTurn hturn hends
      obtain ⟨conclusion', hconclude', hsettles⟩ := Pool.settles_of_reaches hreaches hended
      cases hconclude.symm.trans hconclude'
      refine ⟨conclusion, hrun, hsettles, ?_⟩
      rw [if_neg hturn]
      exact ⟨p, hreaches, hconclude⟩
  · intro threads p hthreads hreaches
    refine ⟨fun p' hmove => hmove.left_lt, ?_⟩
    exact (Pool.progress hthreads hreaches.sound).imp_right (Pool.settles_of_reaches hreaches)

/-- A trial of a task that is not registered, whose failure does not end the campaign. -/
def stray : Spec := { Spec.idle with name := "stray", failOnError := some false }

/-- A trial that is run right here. -/
def here : Spec := { Spec.idle with forks := some 0 }

/-- What it finds out. -/
def hereResult : TrialResult :=
  .pooled here [.ofReports 0 0 [.idle .warmup, .idle .measurement]] [] []

/-- A failure before a result. -/
def mixed : List Attempt :=
  [(stray, .error (.configuration stray.label (unknownTaskMessage "stray"))),
    (here, .ok hereResult)]

/-- Both trials are in the results of one job and of four, and one job has announced them in their
order; two threads can go on with them in more than one way. -/
theorem run_agrees_mixed :
    let results := mixed.map Attempt.result
    let alone := ((idle.run [stray, here] 1).run 0).1
    let together := ((idle.run [stray, here] 4).run 0).1
    (alone.outcome = .ok results ∧ alone.announced = results) ∧
      (together.outcome = .ok results ∧ together.announced.Perm results) ∧
      ∃ p', Pool.Moves mixed 2 (.start 2) p' ∧ p'.left < 4 := by
  intro results alone together
  have hends : ∃ world', idle.Ends 0 mixed world' := ⟨_, .next rfl (.next rfl .none)⟩
  obtain ⟨world', hends⟩ := hends
  obtain ⟨conclusion, hrun, hsettles, hannounced⟩ := (run_agrees idle mixed).1 1 0 world' hends
  obtain ⟨conclusion', hrun', hsettles', -⟩ := (run_agrees idle mixed).1 4 0 world' hends
  have hverdict : verdict mixed = .ok results := rfl
  have halone : alone = conclusion := congrArg Prod.fst hrun
  have htogether : together = conclusion' := congrArg Prod.fst hrun'
  have houtcome := hsettles.outcome.trans hverdict
  have houtcome' := hsettles'.outcome.trans hverdict
  refine ⟨?_, ?_, ?_⟩
  · rw [halone]
    exact ⟨houtcome, hannounced results houtcome⟩
  · rw [htogether]
    exact ⟨houtcome', hsettles'.announced results houtcome'⟩
  · have hmove : Pool.Moves mixed 2 (.start 2) ⟨[.running, .waiting], []⟩ :=
      .takesUp (i := 0) rfl (by decide)
    exact ⟨_, hmove, ((run_agrees idle mixed).2 2 _ (by decide) .refl).1 _ hmove⟩

end Campaign

end Microbench
