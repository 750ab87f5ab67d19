import Microbench.Proofs.Engine.Log
import Microbench.Proofs.Engine.Pairing

/-!
# Watching changes nothing

A watched trial answers what the trial answers, and leaves the world that it leaves;
what is written down stands beside it.  That holds of a call to the task and of a look at
the machine, and therefore of whatever is made of them.

## Main definitions

* `Shows` — a watched computation, with what it has written down left out, is a computation.
* `showing` — the same as a relation that is kept where one computation follows another.

## Main results

* `Bench.pairs_watched`, `Conductor.pairs_watched` — a watched task beside the task.
* `Round.shows_step`, `Round.shows_follow` — a watched round is the round.
* `Conductor.shows_iterate`, `Conductor.shows_runAll` — **a watched trial is the trial.**
-/

namespace Microbench

variable {σ α β ε : Type}

/-- The watched computation, with what it has written down left out, is the computation. -/
def Shows (y : Watched σ α) (x : StateM σ α) : Prop :=
  ∀ world, x.run world = ((y.run world).answer, (y.run world).world)

/-- Watched computations beside computations that leave the same world. -/
def showing : Pairing (Watched σ) (StateM σ) where
  Rel Q y x := ∀ world, Q (y.run world).answer (x.run world).1 ∧
    (y.run world).world = (x.run world).2
  pure h := fun _ => ⟨h, rfl⟩
  bind h hfg := fun world => by
    obtain ⟨hanswers, hworld⟩ := h world
    rw [Watched.run_bind, run_bind, ← hworld]
    exact hfg _ _ hanswers _

namespace Shows

theorem of_rel {y : Watched σ α} {x : StateM σ α} (h : showing.Rel Eq y x) : Shows y x := by
  intro world
  obtain ⟨hanswer, hworld⟩ := h world
  exact Prod.ext hanswer.symm hworld.symm

theorem of_tries {y : ExceptT ε (Watched σ) α} {x : ExceptT ε (StateM σ) α}
    (h : showing.Tries Eq y x) : Shows y.run x.run :=
  of_rel fun world => ⟨(h world).1.eq, (h world).2⟩

end Shows

/-- What calls no task. -/
theorem showing_quiet (x : StateM σ α) : showing.Rel Eq (.quiet x) x := fun _ => ⟨rfl, rfl⟩

/-- A watched task beside the task. -/
theorem Bench.pairs_watched (b : Bench (StateM σ)) : b.watched.Pairs showing b where
  fixtures := rfl
  settings := rfl
  call _ := fun _ => ⟨.of_eq rfl, rfl⟩
  now := showing_quiet _

theorem Probe.pairs_watched (probe : Probe (StateM σ)) : probe.watched.Pairs showing probe where
  name := rfl
  before _ _ := fun _ => ⟨.of_eq rfl, rfl⟩
  after _ _ _ _ := fun _ => ⟨.of_eq rfl, rfl⟩

/-- A watched trial beside the trial. -/
theorem Conductor.pairs_watched (c : Conductor (StateM σ)) : c.watched.Pairs showing c where
  toPairs := c.toBench.pairs_watched
  probes := List.forall₂_map_left_iff.2 (List.forall₂_same.2 fun _ _ => Probe.pairs_watched _)
  patience := rfl

theorem Bench.shows_batch {b : Bench (StateM σ)} {seat : Seat} (n : Nat) (w : Work) :
    Shows (b.watched.batch seat n w).run (b.batch seat n w).run :=
  .of_tries (b.pairs_watched.batch n w)

namespace Round

variable {b : Bench (StateM σ)} {length : IterationLength}

theorem shows_step (r : Round) (index : Nat) :
    Shows (r.step b.watched length index) (r.step b length index) :=
  .of_rel (b.pairs_watched.step r index)

/-- A run of a round in any order. -/
theorem shows_follow (r : Round) (schedule : List Nat) :
    Shows (r.follow b.watched length schedule) (r.follow b length schedule) :=
  .of_rel (b.pairs_watched.follow r schedule)

end Round

namespace Conductor

variable {c : Conductor (StateM σ)}

/-- **A watched iteration is the iteration.** -/
theorem shows_iterate (position : Lifecycle) :
    Shows (c.watched.iterate position) (c.iterate position) :=
  .of_rel (c.pairs_watched.iterate position)

/-- **A watched trial is the trial.** -/
theorem shows_runAll (position : Lifecycle) :
    Shows (c.watched.runAll position) (c.runAll position) :=
  .of_rel (c.pairs_watched.runAll position)

end Conductor

end Microbench
