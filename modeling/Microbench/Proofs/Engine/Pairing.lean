import Microbench.Proofs.Worlds
import Microbench.Engine.Lifecycle

/-!
# One trial in two worlds

A trial is made of calls to its task, of looks at the clock and of what its probes
do.  To compare the same trial in two monads it is enough to compare these: a relation
between computations that is kept where one follows another holds of whatever
is made of them in the same way on both sides.  The walk through a trial is made here
once, for every such relation.

## Main definitions

* `EndsAlike` — answers that are related, or the same error.
* `Pairing` — a relation between computations in two monads, kept by `pure` and `bind`.
* `Bench.Pairs`, `Probe.Pairs`, `Conductor.Pairs` — trials whose parts are related.

## Main results

* `Pairing.andThen`, `Pairing.forM`, `Pairing.foldlM` — computations made of others.
* `Bench.Pairs.batch`, `Bench.Pairs.run` — batches and rounds.
* `Conductor.Pairs.setUp`, `Conductor.Pairs.iterate`, `Conductor.Pairs.tearDown`,
  `Conductor.Pairs.runAll` — **the requests of a trial, and a whole trial.**
-/

namespace Microbench

variable {α β γ δ ε : Type}

/-- Answers that are related, or the same error. -/
inductive EndsAlike (Q : α → β → Prop) : Except ε α → Except ε β → Prop
  /-- Both computations have succeeded. -/
  | ok {a : α} {b : β} (h : Q a b) : EndsAlike Q (.ok a) (.ok b)
  /-- Both have failed in the same way. -/
  | error (e : ε) : EndsAlike Q (.error e) (.error e)

theorem EndsAlike.eq {r r' : Except ε α} (h : EndsAlike Eq r r') : r = r' := by
  cases h with
  | ok h => exact congrArg Except.ok h
  | error e => rfl

theorem EndsAlike.of_eq {r r' : Except ε α} (h : r = r') : EndsAlike Eq r r' := by
  subst h
  cases r with
  | ok a => exact .ok rfl
  | error e => exact .error e

theorem EndsAlike.map_eq {Q : α → β → Prop} {r : Except ε α} {r' : Except ε β} {f : α → γ}
    {g : β → γ} (h : EndsAlike Q r r') (hfg : ∀ a b, Q a b → f a = g b) : r.map f = r'.map g := by
  cases h with
  | ok h => exact congrArg Except.ok (hfg _ _ h)
  | error e => rfl

/-- A relation between computations in two monads, for each relation between their answers; it is
kept where one computation follows another. -/
structure Pairing (m m' : Type → Type) [Monad m] [Monad m'] where
  Rel : ∀ {α β : Type}, (α → β → Prop) → m α → m' β → Prop
  pure : ∀ {α β : Type} {Q : α → β → Prop} {a : α} {b : β}, Q a b →
    Rel Q (Pure.pure a) (Pure.pure b)
  bind : ∀ {α β γ δ : Type} {P : α → β → Prop} {Q : γ → δ → Prop} {x : m α} {y : m' β}
    {f : α → m γ} {g : β → m' δ}, Rel P x y → (∀ a b, P a b → Rel Q (f a) (g b)) →
    Rel Q (x >>= f) (y >>= g)

variable {m m' : Type → Type} [Monad m] [Monad m']

namespace Pairing

variable {R : Pairing m m'} {P : α → β → Prop} {Q : γ → δ → Prop}

/-- Computations that may fail are related if what they come to is. -/
def Tries (R : Pairing m m') (Q : α → β → Prop) (x : ExceptT ε m α) (y : ExceptT ε m' β) : Prop :=
  R.Rel (EndsAlike Q) x.run y.run

/-- Related computations with the same answer, one after the other. -/
theorem bind_eq {x : m α} {y : m' α} {f : α → m γ} {g : α → m' δ} (h : R.Rel Eq x y)
    (hfg : ∀ a, R.Rel Q (f a) (g a)) : R.Rel Q (x >>= f) (y >>= g) :=
  R.bind h fun a _ heq => heq ▸ hfg a

theorem ok {a : α} {b : β} (h : P a b) : R.Tries (ε := ε) P (Pure.pure a) (Pure.pure b) :=
  R.pure (.ok h)

theorem fail (e : ε) : R.Tries P (throw e : ExceptT ε m α) (throw e : ExceptT ε m' β) :=
  R.pure (.error e)

/-- Computations that may fail, one after the other. -/
theorem andThen {x : ExceptT ε m α} {y : ExceptT ε m' β} {f : α → ExceptT ε m γ}
    {g : β → ExceptT ε m' δ} (h : R.Tries P x y) (hfg : ∀ a b, P a b → R.Tries Q (f a) (g b)) :
    R.Tries Q (x >>= f) (y >>= g) := by
  unfold Tries
  rw [ExceptT.run_bind, ExceptT.run_bind]
  refine R.bind h fun r r' hr => ?_
  cases hr with
  | ok h => exact hfg _ _ h
  | error e => exact R.pure (.error e)

/-- The same with the same answer of the first ones. -/
theorem andThen_eq {x : ExceptT ε m α} {y : ExceptT ε m' α} {f : α → ExceptT ε m γ}
    {g : α → ExceptT ε m' δ} (h : R.Tries Eq x y) (hfg : ∀ a, R.Tries Q (f a) (g a)) :
    R.Tries Q (x >>= f) (y >>= g) :=
  andThen h fun a _ heq => heq ▸ hfg a

theorem forM {l : List α} {f : α → ExceptT ε m PUnit} {g : α → ExceptT ε m' PUnit}
    (h : ∀ a, R.Tries Eq (f a) (g a)) : R.Tries Eq (l.forM f) (l.forM g) := by
  induction l with
  | nil => exact ok rfl
  | cons a l ih => exact andThen_eq (h a) fun _ => ih

theorem foldlM {l : List β} {f : α → β → m α} {g : α → β → m' α}
    (h : ∀ a b, R.Rel Eq (f a b) (g a b)) : ∀ a, R.Rel Eq (l.foldlM f a) (l.foldlM g a) := by
  induction l with
  | nil => exact fun a => R.pure rfl
  | cons b l ih =>
    intro a
    rw [List.foldlM_cons, List.foldlM_cons]
    exact R.bind_eq (h a b) ih

section

variable [LawfulMonad m] [LawfulMonad m']

theorem map {x : m α} {y : m' β} {f : α → γ} {g : β → δ} (h : R.Rel P x y)
    (hfg : ∀ a b, P a b → Q (f a) (g b)) : R.Rel Q (f <$> x) (g <$> y) := by
  rw [map_eq_pure_bind, map_eq_pure_bind]
  exact R.bind h fun a b hab => R.pure (hfg a b hab)

theorem map_eq {x : m α} {y : m' α} (f : α → γ) (h : R.Rel Eq x y) :
    R.Rel Eq (f <$> x) (f <$> y) :=
  map h fun _ _ heq => congrArg f heq

theorem lift {x : m α} {y : m' β} (h : R.Rel P x y) :
    R.Tries (ε := ε) P (ExceptT.lift x) (ExceptT.lift y) := by
  unfold Tries
  rw [ExceptT.run_lift, ExceptT.run_lift]
  exact map h fun _ _ hab => .ok hab

end

end Pairing

/-! ### Batches -/

/-- A call to the task, whose error becomes a failure. -/
theorem Pairing.call {R : Pairing m m'} {b : Bench m} {b' : Bench m'} {c : Call}
    (hfailure : b.failure = b'.failure) (h : R.Tries Eq (b.task.call c) (b'.task.call c))
    (site : Site) (thread : Option Nat) :
    R.Tries Eq (b.call site thread c) (b'.call site thread c) := by
  unfold Bench.call
  rw [hfailure]
  refine R.bind h fun r r' hr => ?_
  cases hr with
  | ok hreply => exact R.pure (.ok hreply)
  | error e => exact R.pure (.error _)

/-- The same task on the same machine, as far as the relation goes. -/
structure Bench.Pairs (R : Pairing m m') (b : Bench m) (b' : Bench m') : Prop where
  fixtures : b.task.fixtures = b'.task.fixtures
  settings : b.settings = b'.settings
  call : ∀ c, R.Tries Eq (b.task.call c) (b'.task.call c)
  now : R.Rel Eq b.host.now b'.host.now

namespace Bench.Pairs

variable {R : Pairing m m'} {b : Bench m} {b' : Bench m'} {seat : Seat}

theorem failure (h : b.Pairs R b') : b.failure = b'.failure := by
  unfold Bench.failure
  rw [h.settings]

theorem target (h : b.Pairs R b') : b.target = b'.target := by
  unfold Bench.target Bench.groupOf
  rw [h.settings]

theorem isBracketed (h : b.Pairs R b') : b.isBracketed = b'.isBracketed := by
  unfold Bench.isBracketed
  rw [h.settings, h.fixtures]

theorem harvest (h : b.Pairs R b') : b.harvest = b'.harvest := by
  unfold Bench.harvest
  rw [h.settings]

theorem outcome (h : b.Pairs R b') : Round.outcome b = Round.outcome b' := by
  unfold Round.outcome
  rw [h.failure]

theorem calls (h : b.Pairs R b') (site : Site) (thread : Option Nat) (c : Call) :
    R.Tries Eq (b.call site thread c) (b'.call site thread c) :=
  Pairing.call h.failure (h.call c) site thread

theorem invocationFixtures (h : b.Pairs R b') (stage : Stage) :
    R.Tries Eq (b.invocationFixtures seat stage) (b'.invocationFixtures seat stage) := by
  refine Pairing.forM fun scope => ?_
  rw [h.fixtures, h.target]
  split
  · exact Pairing.andThen_eq (h.calls _ _ _) fun _ => Pairing.ok rfl
  · exact Pairing.ok rfl

theorem accept (h : b.Pairs R b') (w : Work) (reply : Reply) :
    R.Tries Eq (b.accept seat w reply) (b'.accept seat w reply) := by
  unfold Bench.accept
  rw [h.failure]
  cases w.take reply with
  | ok w => exact Pairing.ok rfl
  | error e => exact Pairing.fail _

theorem invokeTimes (h : b.Pairs R b') (n : Nat) (w : Work) :
    R.Tries Eq (b.invokeTimes seat n w) (b'.invokeTimes seat n w) := by
  induction n generalizing w with
  | zero => exact Pairing.ok rfl
  | succ n ih =>
    refine Pairing.andThen_eq (h.calls _ _ _) fun reply => ?_
    exact Pairing.andThen_eq (h.accept w reply) ih

section

variable [LawfulMonad m] [LawfulMonad m']

theorem clock (h : b.Pairs R b') : R.Tries Eq b.now b'.now := Pairing.lift h.now

theorem plainBatch (h : b.Pairs R b') (n : Nat) (w : Work) :
    R.Tries Eq (b.plainBatch seat n w) (b'.plainBatch seat n w) := by
  refine Pairing.andThen_eq h.clock fun start => ?_
  refine Pairing.andThen_eq (h.invokeTimes n w) fun w' => ?_
  exact Pairing.andThen_eq h.clock fun stop => Pairing.ok rfl

theorem invocation (h : b.Pairs R b') (wanted : Bool) :
    R.Tries Eq (b.invocation seat wanted) (b'.invocation seat wanted) := by
  have hclock : R.Tries Eq (some <$> b.now) (some <$> b'.now) := by
    rw [← bind_pure_comp, ← bind_pure_comp]
    exact Pairing.andThen_eq h.clock fun _ => Pairing.ok rfl
  refine Pairing.andThen_eq (h.invocationFixtures .setup) fun _ => ?_
  cases wanted with
  | true =>
    refine Pairing.andThen_eq hclock fun start => ?_
    refine Pairing.andThen_eq (h.calls _ _ _) fun reply => ?_
    refine Pairing.andThen_eq hclock fun stop => ?_
    exact Pairing.andThen_eq (h.invocationFixtures .teardown) fun _ => Pairing.ok rfl
  | false =>
    refine Pairing.andThen_eq (Pairing.ok rfl) fun start => ?_
    refine Pairing.andThen_eq (h.calls _ _ _) fun reply => ?_
    refine Pairing.andThen_eq (Pairing.ok rfl) fun stop => ?_
    exact Pairing.andThen_eq (h.invocationFixtures .teardown) fun _ => Pairing.ok rfl

theorem bracketedBatch (h : b.Pairs R b') (n : Nat) (w : Work) :
    R.Tries Eq (b.bracketedBatch seat n w) (b'.bracketedBatch seat n w) := by
  induction n generalizing w with
  | zero => exact Pairing.ok rfl
  | succ n ih =>
    refine Pairing.andThen_eq (h.invocation _) fun r => ?_
    exact Pairing.andThen_eq (h.accept _ _) ih

theorem batch (h : b.Pairs R b') (n : Nat) (w : Work) :
    R.Tries Eq (b.batch seat n w) (b'.batch seat n w) := by
  unfold Bench.batch
  rw [h.isBracketed]
  split
  · exact h.bracketedBatch n w
  · exact h.plainBatch n w

end

theorem threadFixture (h : b.Pairs R b') (stage : Stage) :
    R.Tries Eq (b.threadFixture seat stage) (b'.threadFixture seat stage) := by
  unfold Bench.threadFixture
  rw [h.fixtures]
  split
  · exact Pairing.andThen_eq (h.call _) fun _ => Pairing.ok rfl
  · exact Pairing.ok rfl

/-! ### Rounds -/

section

variable [LawfulMonad m] [LawfulMonad m'] {length : IterationLength}

theorem settle {x : ExceptT ε m α} {y : ExceptT ε m' α} (h : R.Tries Eq x y)
    (ok : α → Lane.Place) (error : ε → Lane.Place) (c : Common) :
    R.Rel Eq ((c, ·) <$> Lane.settle x ok error) ((c, ·) <$> Lane.settle y ok error) := by
  refine Pairing.map_eq _ (R.bind h fun r r' hr => ?_)
  cases hr with
  | ok ha => exact R.pure (congrArg ok ha)
  | error e => exact R.pure rfl

/-- A step of a lane. -/
theorem advance (h : b.Pairs R b') (c : Common) (place : Lane.Place) :
    R.Rel Eq (Lane.advance b length seat c place) (Lane.advance b' length seat c place) := by
  cases place with
  | entering => exact settle (h.threadFixture .setup) _ _ c
  | waiting refusal =>
    unfold Lane.advance
    dsimp only
    split
    · exact R.pure rfl
    · split <;> exact R.pure rfl
  | refused e => exact R.pure (by rw [h.failure])
  | checking =>
    unfold Lane.advance
    dsimp only
    rw [h.settings]
    split <;> exact R.pure rfl
  | starting =>
    unfold Lane.advance
    dsimp only
    rw [h.settings]
    split
    · exact settle (h.batch _ _) _ _ c
    · exact R.bind_eq h.now fun start => R.pure rfl
  | measuring start pace work =>
    refine R.bind_eq h.now fun now => ?_
    split
    · exact R.pure rfl
    · split <;> exact R.pure rfl
  | batching start pace size work => exact settle (h.batch _ _) _ _ c
  | leaving outcome => exact R.pure (by rw [h.settings])
  | spinning work => exact settle (h.batch _ _) _ _ c
  | closing work =>
    unfold Lane.advance
    dsimp only
    rw [h.harvest, h.failure]
    exact settle (h.threadFixture .teardown) _ _ c
  | _ => exact R.pure rfl

theorem step (h : b.Pairs R b') (r : Round) (index : Nat) :
    R.Rel Eq (r.step b length index) (r.step b' length index) := by
  unfold Round.step
  split
  · exact R.pure rfl
  · exact R.bind_eq (h.advance _ _) fun _ => R.pure rfl

/-- A run of a round in any order. -/
theorem follow (h : b.Pairs R b') (r : Round) (schedule : List Nat) :
    R.Rel Eq (r.follow b length schedule) (r.follow b' length schedule) :=
  Pairing.foldlM h.step r

theorem settleLane (h : b.Pairs R b') (stop : Lane.Place → Bool) (index patience : Nat)
    (r : Round) :
    R.Rel Eq (Round.settleLane b length stop index patience r)
      (Round.settleLane b' length stop index patience r) := by
  induction patience generalizing r with
  | zero => exact R.pure rfl
  | succ patience ih =>
    unfold Round.settleLane
    split
    · exact R.pure rfl
    · split
      · exact R.pure rfl
      · exact R.bind_eq (h.step r index) ih

theorem run (h : b.Pairs R b') (patience : Nat) (seats : List Seat) :
    R.Tries Eq (Round.run b length patience seats) (Round.run b' length patience seats) := by
  have hall : ∀ stop r, R.Tries (ε := Failure) Eq
      (ExceptT.lift (Round.settleAll b length patience stop r))
      (ExceptT.lift (Round.settleAll b' length patience stop r)) :=
    fun stop r => Pairing.lift
      (Pairing.foldlM (fun r index => h.settleLane stop index patience r) r)
  refine Pairing.andThen_eq (hall _ _) fun r => Pairing.andThen_eq (hall _ _) fun r => ?_
  refine Pairing.andThen_eq (hall _ _) fun r => ?_
  rw [h.outcome]
  split
  · exact Pairing.ok rfl
  · exact Pairing.fail _

end

end Bench.Pairs

/-! ### Trials -/

/-- A probe that does the same, as far as the relation goes. -/
structure Probe.Pairs (R : Pairing m m') (probe : Probe m) (probe' : Probe m') : Prop where
  name : probe.name = probe'.name
  before : ∀ s p, R.Tries Eq (probe.before s p) (probe'.before s p)
  after : ∀ s p note result, R.Tries Eq (probe.after s p note result) (probe'.after s p note result)

/-- The same trial, as far as the relation goes. -/
structure Conductor.Pairs (R : Pairing m m') (c : Conductor m) (c' : Conductor m') : Prop
    extends Bench.Pairs R c.toBench c'.toBench where
  probes : List.Forall₂ (Probe.Pairs R) c.probes c'.probes
  patience : c.patience = c'.patience

namespace Bench.Pairs

variable {R : Pairing m m'} {c : Conductor m} {c' : Conductor m'}

theorem targets (h : c.toBench.Pairs R c'.toBench) : c.targets = c'.targets := by
  unfold Conductor.targets
  rw [h.settings]

theorem misuse (h : c.toBench.Pairs R c'.toBench) : c.misuse = c'.misuse := by
  unfold Conductor.misuse
  rw [h.failure]

theorem afterWarmup (h : c.toBench.Pairs R c'.toBench) : c.afterWarmup = c'.afterWarmup := by
  unfold Conductor.afterWarmup
  rw [h.settings]

theorem nextIteration? (h : c.toBench.Pairs R c'.toBench) :
    c.nextIteration? = c'.nextIteration? := by
  unfold Conductor.nextIteration?
  rw [h.settings]

theorem iterationsRun? (h : c.toBench.Pairs R c'.toBench) :
    c.iterationsRun? = c'.iterationsRun? := by
  unfold Conductor.iterationsRun?
  rw [h.settings]

theorem activeSeats (h : c.toBench.Pairs R c'.toBench) : c.activeSeats = c'.activeSeats := by
  unfold Conductor.activeSeats
  rw [h.settings]

theorem trialFixtures (h : c.toBench.Pairs R c'.toBench) (level : Level) (stage : Stage) :
    R.Tries Eq (c.fixtures level stage) (c'.fixtures level stage) := by
  refine Pairing.forM fun scope => ?_
  rw [h.fixtures, h.targets]
  split
  · refine Pairing.forM fun target => ?_
    exact Pairing.andThen_eq (h.calls _ _ _) fun _ => Pairing.ok rfl
  · exact Pairing.ok rfl

theorem build (h : c.toBench.Pairs R c'.toBench) : R.Tries Eq c.build c'.build := by
  unfold Conductor.build
  rw [h.targets]
  refine Pairing.forM fun scope => Pairing.forM fun target => ?_
  exact Pairing.andThen_eq (h.calls _ _ _) fun _ => Pairing.ok rfl

theorem conclude {next : Lifecycle} {x : ExceptT Failure m α} {y : ExceptT Failure m' α}
    (h : R.Tries Eq x y) : R.Rel Eq (Conductor.conclude next x) (Conductor.conclude next y) := by
  refine R.bind h fun r r' hr => ?_
  obtain rfl := hr.eq
  cases r with
  | ok a => exact R.pure rfl
  | error f => exact R.pure rfl

theorem setUp (h : c.toBench.Pairs R c'.toBench) (position : Lifecycle) :
    R.Rel Eq (c.setUp position) (c'.setUp position) := by
  unfold Conductor.setUp
  rw [h.misuse]
  cases position with
  | ready => exact conclude (Pairing.andThen_eq h.build fun _ => h.trialFixtures .trial .setup)
  | _ => exact R.pure rfl

theorem tearDown (h : c.toBench.Pairs R c'.toBench) (position : Lifecycle) :
    R.Rel Eq (c.tearDown position) (c'.tearDown position) := by
  unfold Conductor.tearDown
  rw [h.iterationsRun?, h.misuse]
  split
  · refine conclude (Pairing.andThen_eq (h.trialFixtures .trial .teardown) fun _ => ?_)
    exact Pairing.ok rfl
  · exact R.pure rfl

/-- An iteration without its probes. -/
theorem runIteration [LawfulMonad m] [LawfulMonad m'] (h : c.toBench.Pairs R c'.toBench)
    (hpatience : c.patience = c'.patience) (length : IterationLength) (index : UInt32) :
    R.Tries Eq (c.runIteration length index) (c'.runIteration length index) := by
  refine Pairing.andThen_eq (h.trialFixtures .iteration .setup) fun _ => ?_
  rw [hpatience, h.activeSeats]
  refine Pairing.andThen_eq (h.run _ _) fun harvests => ?_
  exact Pairing.andThen_eq (h.trialFixtures .iteration .teardown) fun _ => Pairing.ok rfl

end Bench.Pairs

namespace Conductor.Pairs

variable {R : Pairing m m'} {c : Conductor m} {c' : Conductor m'}

/-- Notes of probes that do the same are the same. -/
def Notes (R : Pairing m m') (noted : Noted m) (noted' : Noted m') : Prop :=
  noted.1.Pairs R noted'.1 ∧ noted.2 = noted'.2

theorem askBefore (h : c.Pairs R c') (p : PhaseSettings) {probes : List (Probe m)}
    {probes' : List (Probe m')} (hprobes : List.Forall₂ (Probe.Pairs R) probes probes') :
    R.Rel (fun r r' => List.Forall₂ (Notes R) r.1 r'.1 ∧ r.2 = r'.2) (c.askBefore p probes)
      (c'.askBefore p probes') := by
  induction hprobes with
  | nil => exact R.pure ⟨.nil, rfl⟩
  | @cons probe probe' probes probes' hprobe hrest ih =>
    unfold Conductor.askBefore
    rw [h.settings, hprobe.name]
    refine R.bind (hprobe.before _ _) fun r r' hr => R.bind ih fun noted noted' hnoted => ?_
    obtain ⟨hnotes, hwarnings⟩ := hnoted
    cases hr with
    | ok hnote => exact R.pure ⟨.cons ⟨hprobe, hnote⟩ hnotes, hwarnings⟩
    | error e => exact R.pure ⟨.cons ⟨hprobe, rfl⟩ hnotes, congrArg (_ :: ·) hwarnings⟩

theorem askAfter (h : c.Pairs R c') (p : PhaseSettings) {notes : List (Noted m)}
    {notes' : List (Noted m')} (hnotes : List.Forall₂ (Notes R) notes notes')
    (result : IterationResult) :
    R.Rel Eq (c.askAfter p result notes) (c'.askAfter p result notes') := by
  induction hnotes generalizing result with
  | nil => exact R.pure rfl
  | @cons noted noted' notes notes' hnoted hrest ih =>
    obtain ⟨hprobe, hnote⟩ := hnoted
    unfold Conductor.askAfter
    dsimp only
    rw [h.settings, hnote, hprobe.name]
    refine R.bind (hprobe.after _ _ _ _) fun r r' hr => ?_
    obtain rfl := hr.eq
    cases r with
    | ok found => exact ih _
    | error e => exact R.bind_eq (ih result) fun _ => R.pure rfl

variable [LawfulMonad m] [LawfulMonad m']

theorem report (h : c.Pairs R c') (phase : Phase) (index : UInt32) :
    R.Tries Eq (c.report phase index) (c'.report phase index) := by
  have hbefore := h.askBefore (c.settings.phase phase) h.probes
  unfold Conductor.report
  rw [← h.settings]
  refine Pairing.andThen (Pairing.lift hbefore) fun noted noted' hnoted => ?_
  obtain ⟨hnotes, hwarnings⟩ := hnoted
  refine Pairing.andThen_eq (h.runIteration h.patience _ _) fun result => ?_
  rw [hwarnings]
  exact Pairing.andThen_eq (Pairing.lift (h.askAfter _ hnotes _)) fun _ => Pairing.ok rfl

theorem iterate (h : c.Pairs R c') (position : Lifecycle) :
    R.Rel Eq (c.iterate position) (c'.iterate position) := by
  unfold Conductor.iterate
  rw [h.afterWarmup, h.nextIteration?, h.misuse]
  dsimp only
  split
  · exact Bench.Pairs.conclude (h.report _ _)
  · exact R.pure rfl

theorem iterateTimes (h : c.Pairs R c') (k : Nat) (reports : List Report) (position : Lifecycle) :
    R.Rel Eq (c.iterateTimes k reports position) (c'.iterateTimes k reports position) := by
  induction k generalizing reports position with
  | zero => exact R.pure rfl
  | succ k ih =>
    refine R.bind_eq (h.iterate position) fun a => ?_
    obtain ⟨r, next⟩ := a
    cases r with
    | ok report => exact ih _ _
    | error f => exact R.pure rfl

/-- **A whole trial.** -/
theorem runAll (h : c.Pairs R c') (position : Lifecycle) :
    R.Rel Eq (c.runAll position) (c'.runAll position) := by
  unfold Conductor.runAll
  rw [h.settings]
  refine R.bind_eq (h.setUp position) fun a => ?_
  obtain ⟨r, started⟩ := a
  cases r with
  | error f => exact R.pure rfl
  | ok _ =>
    refine R.bind_eq (h.iterateTimes _ _ started) fun a => ?_
    obtain ⟨r, measured⟩ := a
    cases r with
    | error f => exact R.pure rfl
    | ok reports =>
      refine R.bind_eq (h.tearDown measured) fun a => ?_
      obtain ⟨r, ended⟩ := a
      cases r with
      | error f => exact R.pure rfl
      | ok _ => exact R.pure rfl

end Conductor.Pairs

end Microbench
