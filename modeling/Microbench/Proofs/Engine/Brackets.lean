import Microbench.Engine.Lifecycle
import Mathlib.Data.List.Nodup

/-!
# Nested calls

Fixtures stand around what they are fixtures of like brackets: what was set up last
is torn down first.  Which of them are declared makes no difference to that.  Of
all the calls of a trial, those about the state of one thread can be looked at
alone; they are nested in the same way.

## Main definitions

* `bracket` — calls between the fixtures of a level.
* `iterationCalls`, `trialCalls` — the calls of an iteration and of a trial.
* `Nested` — every setup is matched by its teardown.
* `Call.isOn` — whether a call is about the state of a thread.
* `fixtureCalls` — the calls of the fixtures of a stage and a level.

## Main results

* `nested_bracket` — brackets are nested.
* `bracket_filterMap`, `bracket_eq` — brackets are made of the fixtures of the two stages.
* `filter_bracket`, `filter_flatMap_seats` — the calls about one thread.
* `Seat.nodup_layout` — no two threads have one seat.
-/

namespace Microbench

/-- Calls between the fixtures of a level for these targets, the widest target first, as far as the
fixtures are declared. -/
def bracket (f : Fixtures) (level : Level) : List Target → List Call → List Call
  | [], inner => inner
  | t :: ts, inner =>
    if f.has level t.scope then
      .fixture .setup level t :: (bracket f level ts inner ++ [.fixture .teardown level t])
    else bracket f level ts inner

/-- The calls of an iteration for these targets: so many invocations of a thread, each between its
fixtures, and all of them between the fixtures of the iteration. -/
def iterationCalls (f : Fixtures) (ts : List Target) (seat : Seat) (n : Nat) : List Call :=
  bracket f .iteration ts
    (List.replicate n (bracket f .invocation ts [.invoke seat])).flatten

/-- The calls of a trial for these targets: they are built, and the iterations are between the
fixtures of the trial. -/
def trialCalls (f : Fixtures) (ts : List Target) (iterations : List (List Call)) : List Call :=
  ts.map .build ++ bracket f .trial ts iterations.flatten

/-- Every setup is matched by its teardown, and whatever is set up in between is torn down before
it. -/
inductive Nested : List Call → Prop
  /-- No call. -/
  | nil : Nested []
  /-- A piece of state is built. -/
  | build (t : Target) : Nested [.build t]
  /-- The benchmarked code is run. -/
  | invoke (seat : Seat) : Nested [.invoke seat]
  /-- Calls one after the other. -/
  | append {l l' : List Call} (former : Nested l) (latter : Nested l') : Nested (l ++ l')
  /-- Calls between a setup and its teardown. -/
  | around (level : Level) (t : Target) {l : List Call} (inner : Nested l) :
      Nested (.fixture .setup level t :: (l ++ [.fixture .teardown level t]))

/-- Whether a call is about the state of a thread. -/
def Call.isOn (seat : Seat) : Call → Bool
  | .build t => t = .thread seat
  | .fixture _ _ t => t = .thread seat
  | .invoke s => s = seat

/-- The calls of the fixtures of a stage and a level, with the targets of each scope. -/
def fixtureCalls (f : Fixtures) (stage : Stage) (level : Level) (targets : Scope → List Target) :
    List Call :=
  stage.scopes.flatMap fun scope =>
    if f.has level scope then (targets scope).map (.fixture stage level) else []

/-! ### Brackets are nested -/

theorem Nested.flatten {ls : List (List Call)} (h : ∀ l ∈ ls, Nested l) : Nested ls.flatten := by
  induction ls with
  | nil => exact .nil
  | cons l ls ih =>
    obtain ⟨hl, hls⟩ := List.forall_mem_cons.1 h
    rw [List.flatten_cons]
    exact .append hl (ih hls)

theorem nested_bracket (f : Fixtures) (level : Level) (ts : List Target) {inner : List Call}
    (h : Nested inner) : Nested (bracket f level ts inner) := by
  induction ts with
  | nil => exact h
  | cons t ts ih =>
    unfold bracket
    split
    · exact .around level t ih
    · exact ih

theorem nested_iterationCalls (f : Fixtures) (ts : List Target) (seat : Seat) (n : Nat) :
    Nested (iterationCalls f ts seat n) := by
  refine nested_bracket f .iteration ts (.flatten fun l hl => ?_)
  rw [List.eq_of_mem_replicate hl]
  exact nested_bracket f .invocation ts (.invoke seat)

theorem nested_trialCalls (f : Fixtures) (ts : List Target) {iterations : List (List Call)}
    (h : ∀ l ∈ iterations, Nested l) : Nested (trialCalls f ts iterations) := by
  have hbuild : Nested (ts.map .build) := by
    induction ts with
    | nil => exact .nil
    | cons t ts ih => exact .append (.build t) ih
  exact .append hbuild (nested_bracket f .trial ts (.flatten h))

/-- Brackets for at most one target of each scope are made of fixtures in the order of the scopes
and of fixtures in the opposite order. -/
theorem bracket_filterMap (f : Fixtures) (level : Level) {one : Scope → Option Target}
    (hscope : ∀ scope t, one scope = some t → t.scope = scope) (inner : List Call)
    (scopes : List Scope) :
    bracket f level (scopes.filterMap one) inner =
      (scopes.flatMap fun scope =>
        if f.has level scope then (one scope).toList.map (.fixture .setup level) else []) ++
      inner ++
      scopes.reverse.flatMap fun scope =>
        if f.has level scope then (one scope).toList.map (.fixture .teardown level) else [] := by
  induction scopes with
  | nil => simp [bracket]
  | cons scope scopes ih =>
    rw [List.reverse_cons, List.flatMap_append, List.flatMap_cons]
    cases hone : one scope with
    | none =>
      rw [List.filterMap_cons_none hone, ih]
      simp [hone]
    | some t =>
      rw [List.filterMap_cons_some hone, bracket, hscope scope t hone, ih]
      by_cases hdeclared : f.has level scope <;> simp [hone, hdeclared]

theorem bracket_eq (f : Fixtures) (level : Level) (one : Scope → Option Target)
    {targets : Scope → List Target} (htargets : ∀ scope, targets scope = (one scope).toList)
    (hscope : ∀ scope t, one scope = some t → t.scope = scope) (inner : List Call) :
    bracket f level (Scope.all.filterMap one) inner =
      fixtureCalls f .setup level targets ++ inner ++ fixtureCalls f .teardown level targets := by
  obtain rfl : targets = fun scope => (one scope).toList := funext htargets
  exact bracket_filterMap f level hscope inner Scope.all

/-- Brackets for a target and others are brackets around brackets. -/
theorem bracket_append (f : Fixtures) (level : Level) (ts ts' : List Target) (inner : List Call) :
    bracket f level (ts ++ ts') inner = bracket f level ts (bracket f level ts' inner) := by
  induction ts with
  | nil => rfl
  | cons t ts ih =>
    rw [List.cons_append, bracket, bracket, ih]

/-! ### The calls about one thread -/

theorem filter_bracket (f : Fixtures) (level : Level) (seat : Seat) (ts : List Target)
    (inner : List Call) :
    (bracket f level ts inner).filter (Call.isOn seat) =
      bracket f level (ts.filter fun t => t = .thread seat) (inner.filter (Call.isOn seat)) := by
  induction ts with
  | nil => rfl
  | cons t ts ih =>
    by_cases ht : t = .thread seat <;> by_cases hdeclared : f.has level t.scope
    · have hthread : f.has level (Target.thread seat).scope = true := ht ▸ hdeclared
      simp [bracket, Call.isOn, ht, hthread, ih]
    · have hthread : f.has level (Target.thread seat).scope = false := by
        simpa [ht] using hdeclared
      simp [bracket, ht, hthread, ih]
    · simp [bracket, Call.isOn, ht, hdeclared, ih]
    · simp [bracket, ht, hdeclared, ih]

/-- Calls that are made for each of some threads, of which only those for a thread itself are about
its state. -/
theorem filter_flatMap_seats {seats : List Seat} (hnodup : seats.Nodup) {s : Seat → List Call}
    {seat : Seat} (hother : ∀ seat' ≠ seat, (s seat').filter (Call.isOn seat) = []) :
    (seats.flatMap s).filter (Call.isOn seat) =
      if seat ∈ seats then (s seat).filter (Call.isOn seat) else [] := by
  induction seats with
  | nil => rfl
  | cons first rest ih =>
    obtain ⟨hfirst, hrest⟩ := List.nodup_cons.1 hnodup
    rw [List.flatMap_cons, List.filter_append, ih hrest]
    by_cases heq : first = seat
    · subst heq
      rw [if_neg hfirst, if_pos List.mem_cons_self, List.append_nil]
    · have hmem : seat ∈ first :: rest ↔ seat ∈ rest := by
        rw [List.mem_cons, or_iff_right (Ne.symm heq)]
      rw [hother first heq, List.nil_append]
      simp only [hmem]

/-! ### Seats -/

theorem totalThreads_cons (g : Group) (rest : List Group) :
    totalThreads (g :: rest) = g.threads.toNat + totalThreads rest := rfl

namespace Seat

theorem index_layoutFrom (total : Nat) (groups : List Group) :
    ∀ index groupIndex : Nat, (layoutFrom total index groupIndex groups).map Seat.index =
      List.range' index (totalThreads groups) := by
  induction groups with
  | nil => exact fun _ _ => rfl
  | cons g rest ih =>
    intro index groupIndex
    rw [layoutFrom, List.map_append, ih, List.map_map, totalThreads_cons, ← List.range'_append_1,
      List.range'_eq_map_range (n := g.threads.toNat)]
    rfl

/-- No two threads have one seat. -/
theorem nodup_layout (groups : List Group) : (layout groups).Nodup := by
  refine List.Nodup.of_map Seat.index ?_
  rw [layout, index_layoutFrom]
  exact List.nodup_range'

end Seat

/-- Where there is one thread in total and no group is empty, there is one group. -/
theorem exists_eq_singleton_of_totalThreads {groups : List Group} (hone : totalThreads groups = 1)
    (hpositive : ∀ g ∈ groups, g.threads ≠ 0) : ∃ g, groups = [g] ∧ g.threads = 1 := by
  have hpos : ∀ {g : Group}, g ∈ groups → 0 < g.threads.toNat := by
    intro g hg
    refine Nat.pos_of_ne_zero fun hzero => hpositive g hg ?_
    exact UInt32.toNat_inj.1 hzero
  match groups with
  | [] => cases hone
  | [g] =>
    refine ⟨g, rfl, UInt32.toNat_inj.1 ?_⟩
    simpa [totalThreads, Whole.total] using hone
  | g :: g' :: rest =>
    have hfirst := hpos (g := g) (by simp)
    have hsecond := hpos (g := g') (by simp)
    simp only [totalThreads, List.map_cons, Whole.total] at hone
    omega

end Microbench
