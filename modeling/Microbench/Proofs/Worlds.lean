import Microbench.Task.Registry
import Microbench.Trial.Settings
import Microbench.Wire.Message
import Mathlib.Data.List.Forall2

/-!
# Tasks in a world

What a task does beside answering is its own affair.  To follow runs from call to
call, whatever a task keeps between the calls, and whatever the clock and the
machine tell it, is the state of a world; nothing is known about that state.

## Main definitions

* `Always` — an answer is as said, whatever the world is.
* `Ensures`, `Succeeds` — an answer is as said if there is one, and there is one.
* `InStep` — two computations that come to the same in worlds that are alike.
* `TaskEntry.idle`, `Host.ticking`, `Spec.idle` — the task that does nothing, a machine for it, and
  a trial.

## Main results

* `run_bind`, `run_pure`, `run_map`, `run_ok_bind`, `run_error_bind` — how computations move the
  world.
* `exists_of_bind_ok`, `bind_eq_ok_iff`, `check_eq_ok_iff`, `forall₂_of_mapM_ok` — what has
  answered where all together have.
* `Always.bind`, `Ensures.bind`, `Succeeds.bind`, `InStep.bind`, `InStep.andThen` — what follows for
  computations one after the other.
* `InStep.keeping` — what is left alone does not matter.
-/

namespace Microbench

variable {σ α β : Type}

theorem run_pure (a : α) (world : σ) : (pure a : StateM σ α).run world = (a, world) := rfl

theorem run_bind (x : StateM σ α) (f : α → StateM σ β) (world : σ) :
    (x >>= f).run world = (f (x.run world).1).run (x.run world).2 := rfl

theorem run_map (f : α → β) (x : StateM σ α) (world : σ) :
    (f <$> x).run world = (f (x.run world).1, (x.run world).2) := rfl

/-- Whatever the world is, the answer is as said. -/
def Always (x : StateM σ α) (P : α → Prop) : Prop := ∀ world, P (x.run world).1

namespace Always

variable {P : α → Prop} {Q : β → Prop} {x : StateM σ α} {f : α → StateM σ β}

theorem pure {a : α} (h : P a) : Always (σ := σ) (Pure.pure a) P := fun _ => h

theorem bind (hx : Always x P) (hf : ∀ a, P a → Always (f a) Q) : Always (x >>= f) Q :=
  fun world => hf _ (hx world) _

theorem map {g : α → β} (h : Always x fun a => Q (g a)) : Always (g <$> x) Q := h

theorem mono {R : α → Prop} (h : Always x P) (himp : ∀ a, P a → R a) : Always x R :=
  fun world => himp _ (h world)

/-- Nothing is promised of an answer about which nothing is known. -/
theorem trivial : Always x fun _ => True := fun _ => True.intro

end Always

/-! ### Computations that have answered -/

/-- What a computation made of two has answered, both have. -/
theorem exists_of_bind_ok {ε α β : Type} {x : Except ε α} {f : α → Except ε β} {b : β}
    (h : (x >>= f) = .ok b) : ∃ a, x = .ok a ∧ f a = .ok b := by
  cases x with
  | error e => cases h
  | ok a => exact ⟨a, rfl, h⟩

theorem bind_eq_ok_iff {ε α β : Type} {x : Except ε α} {f : α → Except ε β} {b : β} :
    (x >>= f) = .ok b ↔ ∃ a, x = .ok a ∧ f a = .ok b := by
  refine ⟨exists_of_bind_ok, ?_⟩
  rintro ⟨a, rfl, h⟩
  exact h

section

variable {ε α β : Type} {c : Prop} [Decidable c] {e : ε} {a : α}

/-- Where a check comes first, there is an answer only if it is passed. -/
theorem check_bind_eq_ok_iff {x : Except ε α} {f : β → Except ε α} :
    (if c then .error e >>= f else x) = .ok a ↔ ¬ c ∧ x = .ok a := by
  by_cases h : c
  · rw [if_pos h]
    exact ⟨nofun, fun hok => absurd h hok.1⟩
  · rw [if_neg h, and_iff_right h]

theorem check_eq_ok_iff {b : α} : (if c then Except.error e else .ok b) = .ok a ↔ ¬ c ∧ a = b := by
  by_cases h : c
  · rw [if_pos h]
    exact ⟨nofun, fun hok => absurd h hok.1⟩
  · rw [if_neg h, and_iff_right h, Except.ok.injEq, eq_comm]

end

theorem ok_of_forM_ok {ε α : Type} {f : α → Except ε Unit} {l : List α} (h : l.forM f = .ok ()) :
    ∀ a ∈ l, f a = .ok () := by
  induction l with
  | nil => exact fun _ ha => nomatch ha
  | cons a l ih =>
    obtain ⟨⟨⟩, ha, hl⟩ := exists_of_bind_ok h
    exact List.forall_mem_cons.2 ⟨ha, ih hl⟩

theorem forall₂_of_mapM_ok {ε α β : Type} {f : α → Except ε β} {l : List α} {l' : List β}
    (h : l.mapM f = .ok l') : List.Forall₂ (fun a b => f a = .ok b) l l' := by
  induction l generalizing l' with
  | nil =>
    cases h
    exact .nil
  | cons a l ih =>
    rw [List.mapM_cons] at h
    obtain ⟨b, hb, h⟩ := exists_of_bind_ok h
    obtain ⟨bs, hbs, h⟩ := exists_of_bind_ok h
    cases h
    exact .cons hb (ih hbs)

/-- What a list stands beside has an element of it beside each of its own. -/
theorem exists_of_forall₂_of_mem {α β : Type} {R : α → β → Prop} {l : List α} {l' : List β}
    (h : List.Forall₂ R l l') {b : β} (hb : b ∈ l') : ∃ a ∈ l, R a b := by
  induction h with
  | nil => cases hb
  | cons hab _ ih =>
    rcases List.mem_cons.1 hb with rfl | hb
    · exact ⟨_, List.mem_cons_self, hab⟩
    · obtain ⟨a, ha, hab⟩ := ih hb
      exact ⟨a, List.mem_cons_of_mem _ ha, hab⟩

/-! ### Computations that may fail -/

variable {ε : Type}

theorem run_lift_bind (x : StateM σ α) (f : α → ExceptT ε (StateM σ) β) (world : σ) :
    (ExceptT.lift x >>= f).run.run world = (f (x.run world).1).run.run (x.run world).2 := rfl

theorem run_ok_bind {x : ExceptT ε (StateM σ) α} {a : α} {world world' : σ}
    (h : x.run.run world = (.ok a, world')) (f : α → ExceptT ε (StateM σ) β) :
    (x >>= f).run.run world = (f a).run.run world' := by
  rw [ExceptT.run_bind, run_bind, h]

theorem run_error_bind {x : ExceptT ε (StateM σ) α} {e : ε} {world world' : σ}
    (h : x.run.run world = (.error e, world')) (f : α → ExceptT ε (StateM σ) β) :
    (x >>= f).run.run world = (.error e, world') := by
  rw [ExceptT.run_bind, run_bind, h]
  rfl

/-- Whatever the world is, an answer that is no failure is as said. -/
def Ensures (x : ExceptT ε (StateM σ) α) (P : α → Prop) : Prop :=
  Always x.run fun r => ∀ a, r = .ok a → P a

namespace Ensures

variable {P : α → Prop} {Q : β → Prop} {x : ExceptT ε (StateM σ) α}
  {f : α → ExceptT ε (StateM σ) β}

theorem pure {a : α} (h : P a) : Ensures (σ := σ) (ε := ε) (Pure.pure a) P := by
  rintro world _ ⟨⟩
  exact h

theorem throw {e : ε} : Ensures (throw e : ExceptT ε (StateM σ) α) P := fun _ _ h => nomatch h

theorem lift {y : StateM σ α} (h : Always y P) : Ensures (ε := ε) (ExceptT.lift y) P := by
  rintro world _ ⟨⟩
  exact h world

theorem bind (hx : Ensures x P) (hf : ∀ a, P a → Ensures (f a) Q) : Ensures (x >>= f) Q := by
  unfold Ensures
  rw [ExceptT.run_bind]
  refine Always.bind hx fun r hr => ?_
  cases r with
  | ok a => exact hf a (hr a rfl)
  | error e => exact fun _ _ h => nomatch h

theorem mono {R : α → Prop} (h : Ensures x P) (himp : ∀ a, P a → R a) : Ensures x R :=
  fun world a ha => himp a (h world a ha)

/-- Nothing is promised of an answer about which nothing is known. -/
theorem trivial : Ensures x fun _ => True := fun _ _ _ => True.intro

end Ensures

/-- Whatever the world is, there is an answer that is no failure. -/
def Succeeds (x : ExceptT ε (StateM σ) α) : Prop := Always x.run fun r => ∃ a, r = .ok a

namespace Succeeds

variable {x : ExceptT ε (StateM σ) α} {f : α → ExceptT ε (StateM σ) β}

theorem pure {a : α} : Succeeds (σ := σ) (ε := ε) (Pure.pure a) := fun _ => ⟨a, rfl⟩

theorem lift {y : StateM σ α} : Succeeds (ε := ε) (ExceptT.lift y) := fun world =>
  ⟨(y.run world).1, rfl⟩

theorem bind (hx : Succeeds x) (hf : ∀ a, Succeeds (f a)) : Succeeds (x >>= f) := by
  unfold Succeeds
  rw [ExceptT.run_bind]
  refine Always.bind hx fun r hr => ?_
  obtain ⟨a, rfl⟩ := hr
  exact hf a

end Succeeds

/-! ### Worlds that are alike -/

/-- In worlds that are alike both computations answer the same, and they leave worlds that are
alike. -/
def InStep (R : σ → σ → Prop) (x y : StateM σ α) : Prop :=
  ∀ world world', R world world' →
    (x.run world).1 = (y.run world').1 ∧ R (x.run world).2 (y.run world').2

namespace InStep

variable {R : σ → σ → Prop}

theorem pure (a : α) : InStep R (Pure.pure a) (Pure.pure a) := fun _ _ h => ⟨rfl, h⟩

theorem bind {x y : StateM σ α} {f g : α → StateM σ β} (h : InStep R x y)
    (hf : ∀ a, InStep R (f a) (g a)) : InStep R (x >>= f) (y >>= g) := by
  intro world world' hworlds
  obtain ⟨hanswer, hafter⟩ := h world world' hworlds
  rw [run_bind, run_bind, ← hanswer]
  exact hf _ _ _ hafter

/-- Computations that may fail, one after the other. -/
theorem andThen {x y : ExceptT ε (StateM σ) α} {f g : α → ExceptT ε (StateM σ) β}
    (h : InStep R x.run y.run) (hf : ∀ a, InStep R (f a).run (g a).run) :
    InStep R (x >>= f).run (y >>= g).run := by
  rw [ExceptT.run_bind, ExceptT.run_bind]
  refine bind h fun r => ?_
  cases r with
  | ok a => exact hf a
  | error e => exact pure _

theorem lift {x y : StateM σ α} (h : InStep R x y) :
    InStep R (ExceptT.lift x : ExceptT ε (StateM σ) α).run (ExceptT.lift y).run := by
  intro world world' hworlds
  obtain ⟨hanswer, hafter⟩ := h world world' hworlds
  exact ⟨congrArg Except.ok hanswer, hafter⟩

/-- What both computations leave alone may be different in the two worlds. -/
theorem keeping {γ : Type} {kept : σ → γ} {x y : StateM σ α} (h : InStep R x y)
    (hx : ∀ world, kept (x.run world).2 = kept world)
    (hy : ∀ world, kept (y.run world).2 = kept world) (c c' : γ) :
    InStep (fun world world' => R world world' ∧ kept world = c ∧ kept world' = c') x y := by
  rintro world world' ⟨hworlds, hc, hc'⟩
  obtain ⟨hanswer, hafter⟩ := h world world' hworlds
  exact ⟨hanswer, hafter, (hx world).trans hc, (hy world').trans hc'⟩

end InStep

/-! ### A world in which nothing happens but time -/

/-- The task that does nothing. -/
def TaskEntry.idle (name : String) : TaskEntry (StateM Nat) where
  declaration := ⟨name, .averageTime, [], []⟩
  create _ := Pure.pure ⟨.none, fun _ => Pure.pure {}⟩

/-- The machine whose clock goes on whenever it is looked at. -/
def Host.ticking : Host (StateM Nat) where
  now := modifyGet fun n => (⟨n⟩, n + 1)
  usage := Pure.pure default

/-- A trial of the task that does nothing, with one iteration of each phase; they are over before
anything can be measured. -/
def Spec.idle : Spec where
  name := "idle"
  mode := .averageTime
  warmup := { iterations := some 1, time := some ⟨1⟩ }
  measurement := { iterations := some 1, time := some ⟨1⟩ }

/-- What such a trial is run with. -/
def Settings.idle : Settings where
  task := "idle"
  mode := .averageTime
  unit := Mode.averageTime.defaultUnit
  warmup := ⟨.warmup, 1, .time ⟨1⟩⟩
  measurement := ⟨.measurement, 1, .time ⟨1⟩⟩
  groups := [⟨implicitGroup, 1⟩]
  bindings := Spec.idle.bindings
  syncIterations := true
  scale := false
  failOnError := true
  forks := 1
  warmupForks := 0
  timeout := defaultTimeout

theorem Settings.resolve_idle :
    resolve .idle (TaskEntry.idle "idle").declaration = .ok .idle := rfl

/-- What is reported of its iterations. -/
def Report.idle (phase : Phase) : Report := ⟨phase, 0, { threads := 1 }, []⟩

/-- Only one name is registered where one task is. -/
theorem Registry.get?_singleton {m : Type → Type} {e entry : TaskEntry m} {name : String}
    (h : (Registry.ofList [e]).get? name = some entry) : name = e.id ∧ entry = e := by
  have hfind : Dict.find name [(e.id, e)] = some entry := h
  rw [Dict.find] at hfind
  split at hfind
  · next heq => exact ⟨heq, (Option.some.inj hfind).symm⟩
  · cases hfind

end Microbench
