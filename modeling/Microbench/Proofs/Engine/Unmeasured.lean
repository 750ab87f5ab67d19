import Microbench.Proofs.Engine.Orders

/-!
# Idle invocations are not measured

A thread that has measured may have to go on invoking until the others have measured too.
What it is answered then, and what it records, is left out: the result of an iteration is a
function of what its threads had measured and recorded when they left their measured part.
So two runs of an iteration whose threads leave with the same works have the same result,
however often each of them invokes afterwards.

## Main results

* `Conductor.runIteration_departs` — **idle invocations are not measured.**
-/

namespace Microbench

variable {σ : Type}

/-- A lane that leaves with the work that it has in another run, too. -/
theorem Round.departs_alike {b : Bench (StateM σ)} {length : IterationLength} {r : Round}
    {world world' : σ} {schedule schedule' : List Nat} {i : Nat} (k k' : Nat)
    (h : r.Leaves b length world schedule i k) (h' : r.Leaves b length world' schedule' i k')
    (hsome : ((r.reached b length world (schedule.take k)).workAt? i).isSome = true)
    (hsame : (r.reached b length world' (schedule'.take k')).workAt? i =
      (r.reached b length world (schedule.take k)).workAt? i) :
    ∃ w k k', r.Departs b length world schedule i k w ∧
      r.Departs b length world' schedule' i k' w := by
  obtain ⟨w, hw⟩ := Option.isSome_iff_exists.1 hsome
  exact ⟨w, k, k', ⟨h, hw⟩, h', hsame.trans hw⟩

namespace Conductor

/-- Runs whose threads leave with the same works have the same result. -/
theorem result_eq_of_departs {c : Conductor (StateM σ)} {length : IterationLength} {index : UInt32}
    {schedule schedule' : List Nat} {world world' : σ} {result result' : IterationResult}
    (h : ((c.runIterationAlong length index schedule).run.run world).1 = .ok result)
    (h' : ((c.runIterationAlong length index schedule').run.run world').1 = .ok result')
    (hsame : ∀ i < (c.activeSeats index).length, ∃ w k k',
      (Round.ofSeats (c.activeSeats index)).Departs c.toBench length (c.opened world) schedule
        i k w ∧
      (Round.ofSeats (c.activeSeats index)).Departs c.toBench length (c.opened world') schedule'
        i k' w) : result = result' := by
  obtain ⟨rfl, hholds, hdeparts⟩ := result_of_ok h
  obtain ⟨rfl, hholds', hdeparts'⟩ := result_of_ok h'
  have hlength := hholds.length_eq.trans (Round.length_measured ..)
  have hlength' := hholds'.length_eq.trans (Round.length_measured ..)
  congr 1
  refine List.ext_getElem (hlength.trans hlength'.symm) fun i hi hi' => ?_
  obtain ⟨w, k, k', hw, hw'⟩ := hsame i (hlength ▸ hi)
  obtain ⟨j, hj⟩ := hdeparts i _ (List.getElem?_eq_getElem hi)
  obtain ⟨j', hj'⟩ := hdeparts' i _ (List.getElem?_eq_getElem hi')
  exact (hj.unique hw).2.trans (hw'.unique hj').2

/-- **Idle invocations are not measured.**  An iteration is run in one of the orders in which its
threads can move.  In any of them: where nothing goes wrong and all threads come to their end it has
a result; and the result is what the works amount to with which its threads have left their measured
part, each of them once.  So runs whose threads leave with the same works have the same result,
whatever they have been answered after that and however often they have invoked. -/
theorem runIteration_departs (c : Conductor (StateM σ)) (length : IterationLength)
    (index : UInt32) :
    (∀ world, ∃ schedule, (c.runIteration length index).run.run world =
      (c.runIterationAlong length index schedule).run.run world) ∧
    (∀ schedule world,
      let round := Round.ofSeats (c.activeSeats index)
      let seen := (c.watched.runIterationAlong length index schedule).run.run world
      (c.runIterationAlong length index schedule).run.run world = (seen.answer, seen.world) ∧
      ((∀ x ∈ seen.log, x.isGood = true) →
        (round.reached c.toBench length (c.opened world) schedule).isOver = true →
        ∃ result, seen.answer = .ok result) ∧
      ∀ result, seen.answer = .ok result → ∃ works : List Work,
        works.length = (c.activeSeats index).length ∧ result = .ofWorks c.settings works ∧
        ∀ i w, works[i]? = some w →
          ∃! k, round.Departs c.toBench length (c.opened world) schedule i k w) ∧
    ∀ schedule schedule' world world' result result',
      ((c.runIterationAlong length index schedule).run.run world).1 = .ok result →
      ((c.runIterationAlong length index schedule').run.run world').1 = .ok result' →
      (∀ i < (c.activeSeats index).length, ∃ w k k',
        (Round.ofSeats (c.activeSeats index)).Departs c.toBench length (c.opened world) schedule
          i k w ∧
        (Round.ofSeats (c.activeSeats index)).Departs c.toBench length (c.opened world') schedule'
          i k' w) → result = result' := by
  refine ⟨exists_runIterationAlong length index, fun schedule world => ?_,
    fun _ _ _ _ _ _ h h' hsame => result_eq_of_departs h h' hsame⟩
  intro round seen
  have hshows : (c.runIterationAlong length index schedule).run.run world =
      (seen.answer, seen.world) := shows_runIterationAlong length index schedule world
  have hanswer := congrArg Prod.fst hshows
  refine ⟨hshows, fun hgood hover => ?_, fun result hresult => ?_⟩
  · obtain ⟨result, hresult⟩ := ok_of_good hgood hover
    exact ⟨result, hanswer.symm.trans hresult⟩
  · obtain ⟨hworks, hholds, hdeparts⟩ := result_of_ok (hanswer.trans hresult)
    refine ⟨_, ?_, hworks, fun i w hw => ?_⟩
    · rw [hholds.length_eq, Round.length_measured]
    · obtain ⟨k, hk⟩ := hdeparts i w hw
      exact ⟨k, hk, fun k' hk' => (hk'.unique hk).1⟩

/-- Two threads of a task that records how often it has been called by a thread: nothing with its
first call, and more with every other. -/
def wearing : Conductor (StateM (Nat × Nat)) where
  task :=
    { fixtures := .none
      call
        | .invoke seat => ExceptT.mk <| modifyGet fun
          | (first, second) =>
            if seat.index = 0 then
              (.ok { recordings := [⟨"wear", Float.ofNat first, "steps", .sum⟩] }, first + 1,
                second)
            else
              (.ok { recordings := [⟨"wear", Float.ofNat second, "steps", .sum⟩] }, first,
                second + 1)
        | _ => pure {} }
  settings := { Settings.idle with groups := [⟨"a", 2⟩] }
  host := { now := pure .zero, usage := pure default }

/-- The first thread invokes three times while it waits for the second one, or not at all; that
makes no difference. -/
theorem runIteration_departs_wearing :
    let round := Round.ofSeats (wearing.activeSeats 0)
    let prompt := [0, 0, 1, 1, 0, 0, 0, 1, 1, 1, 0, 1, 0, 0, 1, 1]
    let patient := [0, 0, 1, 1, 0, 0, 0, 0] ++ [0, 0, 0, 0, 0, 0, 0, 0, 0] ++
      [1, 1, 1, 1, 0, 0, 1, 1]
    let seen schedule := (wearing.watched.runIterationAlong (.invocations 1) 0 schedule).run.run
      (0, 0)
    (∀ schedule ∈ [prompt, patient], (∀ x ∈ (seen schedule).log, x.isGood = true) ∧
      (round.reached wearing.toBench (.invocations 1) (wearing.opened (0, 0)) schedule).isOver =
        true) ∧
    (invocations (seen prompt).log).length = 2 ∧ (invocations (seen patient).log).length = 5 ∧
      ∃ result, (seen prompt).answer = .ok result ∧ (seen patient).answer = .ok result := by
  intro round prompt patient seen
  obtain ⟨-, hrun, hsame⟩ := runIteration_departs wearing (.invocations 1) 0
  have hgood : ∀ schedule ∈ [prompt, patient], (∀ x ∈ (seen schedule).log, x.isGood = true) ∧
      (round.reached wearing.toBench (.invocations 1) (wearing.opened (0, 0)) schedule).isOver =
        true := by
    decide +kernel
  obtain ⟨hgood', hover'⟩ := hgood patient (by simp)
  obtain ⟨hshows, hends, -⟩ := hrun prompt (0, 0)
  obtain ⟨hshows', hends', -⟩ := hrun patient (0, 0)
  obtain ⟨result, hresult⟩ := hends (hgood prompt (by simp)).1 (hgood prompt (by simp)).2
  obtain ⟨result', hresult'⟩ := hends' hgood' hover'
  have hanswer : ((wearing.runIterationAlong (.invocations 1) 0 prompt).run.run (0, 0)).1 =
      .ok result := by
    rw [hshows, ← hresult]
  have hanswer' : ((wearing.runIterationAlong (.invocations 1) 0 patient).run.run (0, 0)).1 =
      .ok result' := by
    rw [hshows', ← hresult']
  have hseats : (wearing.activeSeats 0).length = 2 := by decide +kernel
  have heq : result = result' := by
    refine hsame prompt patient (0, 0) (0, 0) result result' hanswer hanswer' fun i hi => ?_
    -- each thread leaves after its first invocation, in both runs
    have hcases : i = 0 ∨ i = 1 := by omega
    rcases hcases with rfl | rfl
    · exact Round.departs_alike 10 7 ⟨by decide, by decide +kernel, by decide +kernel⟩
        ⟨by decide, by decide +kernel, by decide +kernel⟩ (by decide +kernel) (by decide +kernel)
    · exact Round.departs_alike 11 20 ⟨by decide, by decide +kernel, by decide +kernel⟩
        ⟨by decide, by decide +kernel, by decide +kernel⟩ (by decide +kernel) (by decide +kernel)
  subst heq
  exact ⟨hgood, by decide +kernel, by decide +kernel, result, hresult, hresult'⟩

end Conductor

end Microbench
