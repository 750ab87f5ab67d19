import Microbench.Proofs.Worlds

/-!
# What can be run

A specification is resolved by filling its gaps and checking what comes out.  The checks
are made one after the other, but together they are a property of the specification and
the declared task, and what comes out of a specification that passes them is what it says
with the gaps filled.  A phase without any time is no fault where the time does not matter:
a number of invocations goes before it, and a single shot needs none.

## Main definitions

* `Spec.IsRunnable` — a specification that can be run with a task.
* `Spec.threadCounts`, `PhaseSpec.lengthIn` — how many threads its groups have, and how long the
  iterations of a phase last.
* `Spec.settled` — a specification with its gaps filled.
* `IterationLength.isPositive` — an iteration that has something to do.
* `Settings.IsSound` — what running a trial relies on.

## Main results

* `Settings.resolve_eq_ok_iff` — what is settled by resolving a specification.
* `Settings.resolve_exactly` — **exactly what can be run is resolved, and it is sound.**
-/

namespace Microbench

/-! ### The length of an iteration -/

/-- A time that is not given is the default, so only one that is given can be no time at all. -/
theorem nanos_getD_eq_zero_iff {time : Option Duration} {default : Duration}
    (h : 0 < default.nanos) : (time.getD default).nanos = 0 ↔ time = some .zero := by
  cases time with
  | none => exact iff_of_false (Nat.ne_of_gt h) nofun
  | some t =>
    obtain ⟨n⟩ := t
    simp [Duration.zero]

/-- An iteration lasts some time, or has an invocation. -/
def IterationLength.isPositive : IterationLength → Prop
  | invocations n => 0 < n.toNat
  | time target => 0 < target.nanos

namespace PhaseSpec

/-- There is something to do in the iterations of a phase. -/
structure HasLength (p : PhaseSpec) (mode : Mode) : Prop where
  /-- Not so many invocations as none. -/
  batch : p.batch ≠ some 0
  /-- Some time, where it matters. -/
  time : p.batch = none → mode ≠ .singleShot → p.time ≠ some .zero

/-- How long the iterations of a phase last: so many invocations if there is a number, one in a
single shot, and so long otherwise. -/
def lengthIn (p : PhaseSpec) (mode : Mode) : IterationLength :=
  match p.batch with
  | some n => .invocations n
  | none => if mode = .singleShot then .invocations 1 else .time (p.time.getD Settings.defaultTime)

variable {p : PhaseSpec} {mode : Mode}

theorem HasLength.isPositive_lengthIn (h : p.HasLength mode) : (p.lengthIn mode).isPositive := by
  unfold lengthIn
  split
  · next n hn =>
    refine Nat.pos_of_ne_zero fun hzero => h.batch ?_
    rw [hn, UInt64.toNat_inj.1 (hzero.trans UInt64.toNat_zero.symm)]
  · next hnone =>
    split
    · exact Nat.one_pos
    · next hmode =>
      have htime := h.time hnone hmode
      exact Nat.pos_of_ne_zero fun hzero =>
        htime ((nanos_getD_eq_zero_iff (Nat.succ_pos _)).1 hzero)

end PhaseSpec

namespace Settings

theorem resolveLength_eq_ok_iff {p : PhaseSpec} {mode : Mode} {length : IterationLength} :
    resolveLength p (mode = .singleShot) = .ok length ↔
      p.HasLength mode ∧ length = p.lengthIn mode := by
  have hlength : p.HasLength mode ↔
      p.batch ≠ some 0 ∧ (p.batch = none → mode ≠ .singleShot → p.time ≠ some .zero) :=
    ⟨fun h => ⟨h.batch, h.time⟩, fun h => ⟨h.1, h.2⟩⟩
  rw [resolveLength, PhaseSpec.lengthIn, hlength]
  cases p.batch with
  | some n =>
    dsimp only
    rw [check_eq_ok_iff]
    simp
  | none =>
    by_cases hmode : mode = .singleShot
    · simp [hmode, eq_comm]
    · have hzero : (p.time.getD defaultTime).nanos = 0 ↔ p.time = some .zero :=
        nanos_getD_eq_zero_iff (Nat.succ_pos _)
      simp only [hmode, decide_false, Bool.false_eq_true, if_false, hzero, check_eq_ok_iff]
      simp [hmode]

theorem resolvePhase_eq_ok_iff {phase : Phase} {p : PhaseSpec} {mode : Mode} {q : PhaseSettings} :
    resolvePhase phase p (mode = .singleShot) = .ok q ↔
      p.HasLength mode ∧ q = ⟨phase, p.iterations.getD defaultIterations, p.lengthIn mode⟩ := by
  simp only [resolvePhase, bind_eq_ok_iff, resolveLength_eq_ok_iff]
  constructor
  · rintro ⟨length, ⟨h, rfl⟩, hq⟩
    cases hq
    exact ⟨h, rfl⟩
  · rintro ⟨h, rfl⟩
    exact ⟨_, ⟨h, rfl⟩, rfl⟩

end Settings

/-! ### Groups and their threads -/

namespace Spec

/-- How many threads the groups are to have: the sizes that are given, or else what is known about
the implicit group or declared for the others. -/
def threadCounts (s : Spec) (d : Declaration) : List UInt32 :=
  if s.groupSizes ≠ [] then s.groupSizes
  else if d.groups = [] then [s.threads.getD Settings.defaultThreads]
  else d.groups.map (·.threads)

/-- The sizes that are given are for the groups that there are. -/
structure FitsGroups (s : Spec) (d : Declaration) : Prop where
  /-- There is only one group if none is declared. -/
  implicit : d.groups = [] → s.groupSizes.length ≤ 1
  /-- Declared groups have a size each, if any of them is given. -/
  declared : d.groups ≠ [] → s.groupSizes = [] ∨ s.groupSizes.length = d.groups.length

end Spec

/-- The names of the groups. -/
def Declaration.groupNames (d : Declaration) : List String :=
  if d.groups = [] then [Settings.implicitGroup] else d.groups.map (·.name)

/-- The groups with their threads. -/
def Spec.groupsIn (s : Spec) (d : Declaration) : List Group :=
  List.zipWith Group.mk d.groupNames (s.threadCounts d)

namespace Spec.FitsGroups

variable {s : Spec} {d : Declaration}

theorem length_threadCounts (h : s.FitsGroups d) :
    (s.threadCounts d).length = d.groupNames.length := by
  unfold threadCounts Declaration.groupNames
  by_cases hsizes : s.groupSizes = []
  · rw [if_neg (not_not_intro hsizes)]
    split
    · rfl
    · rw [List.length_map, List.length_map]
  · rw [if_pos hsizes]
    split
    · next hnone =>
      have hsome := List.length_pos_iff.2 hsizes
      have hone := h.implicit hnone
      rw [List.length_singleton]
      omega
    · next hsome =>
      rw [List.length_map]
      exact (h.declared hsome).resolve_left hsizes

theorem map_name_groupsIn (h : s.FitsGroups d) : (s.groupsIn d).map (·.name) = d.groupNames := by
  rw [groupsIn, ← List.map_uncurry_zip_eq_zipWith, List.map_map]
  exact List.map_fst_zip (Nat.le_of_eq h.length_threadCounts.symm)

theorem map_threads_groupsIn (h : s.FitsGroups d) :
    (s.groupsIn d).map (·.threads) = s.threadCounts d := by
  rw [groupsIn, ← List.map_uncurry_zip_eq_zipWith, List.map_map]
  exact List.map_snd_zip (Nat.le_of_eq h.length_threadCounts)

end Spec.FitsGroups

namespace Settings

variable {s : Spec} {d : Declaration} {groups : List Group}

theorem implicitGroups_eq_ok_iff (hnone : d.groups = []) :
    implicitGroups s = .ok groups ↔ s.FitsGroups d ∧ groups = s.groupsIn d := by
  have hfits : s.FitsGroups d ↔ s.groupSizes.length ≤ 1 :=
    ⟨fun h => h.implicit hnone, fun h => ⟨fun _ => h, fun hsome => absurd hnone hsome⟩⟩
  rw [hfits, implicitGroups, Spec.groupsIn, Spec.threadCounts, Declaration.groupNames,
    if_pos hnone, if_pos hnone]
  split
  · next hsizes => simp [hsizes, eq_comm]
  · next threads hsizes => simp [hsizes, eq_comm]
  · next hsizes hsize =>
    -- what is left are two sizes and more
    match hgiven : s.groupSizes with
    | [] => exact absurd hgiven hsizes
    | [threads] => exact absurd hgiven (hsize threads)
    | _ :: _ :: _ => simp

theorem declaredGroups_eq_ok_iff (hsome : d.groups ≠ []) :
    declaredGroups d.groups s.groupSizes = .ok groups ↔
      s.FitsGroups d ∧ groups = s.groupsIn d := by
  have hfits : s.FitsGroups d ↔ s.groupSizes = [] ∨ s.groupSizes.length = d.groups.length :=
    ⟨fun h => h.declared hsome, fun h => ⟨fun hnone => absurd hnone hsome, fun _ => h⟩⟩
  rw [hfits, declaredGroups, Spec.groupsIn, Spec.threadCounts, Declaration.groupNames,
    if_neg hsome, if_neg hsome]
  by_cases hsizes : s.groupSizes = []
  · have hown : List.zipWith Group.mk (d.groups.map (·.name)) (d.groups.map (·.threads)) =
        d.groups := by
      rw [List.zipWith_map, List.zipWith_self]
      exact List.map_id _
    simp [hsizes, hown, eq_comm]
  · have hgiven : ¬ s.groupSizes.isEmpty = true := by simpa using hsizes
    rw [if_neg hgiven, if_pos hsizes, List.zipWith_map_left]
    by_cases hlength : s.groupSizes.length = d.groups.length
    · rw [if_pos hlength, Except.ok.injEq, and_iff_right (.inr hlength), eq_comm]
    · simp [hsizes, hlength]

/-- No group is empty where every number of threads is positive. -/
theorem any_groupsIn_iff (h : s.FitsGroups d) :
    (s.groupsIn d).any (·.threads = 0) = true ↔ ¬ ∀ n ∈ s.threadCounts d, n ≠ 0 := by
  rw [← h.map_threads_groupsIn, List.forall_mem_map, List.any_eq_true]
  simp

theorem resolveGroups_eq_ok_iff :
    resolveGroups s d = .ok groups ↔
      (s.FitsGroups d ∧ ∀ n ∈ s.threadCounts d, n ≠ 0) ∧ groups = s.groupsIn d := by
  have hasked : (if d.groups.isEmpty then implicitGroups s
      else declaredGroups d.groups s.groupSizes) = .ok groups ↔
        s.FitsGroups d ∧ groups = s.groupsIn d := by
    by_cases hnone : d.groups = []
    · rw [if_pos (List.isEmpty_iff.2 hnone), implicitGroups_eq_ok_iff hnone]
    · rw [if_neg (mt List.isEmpty_iff.1 hnone), declaredGroups_eq_ok_iff hnone]
  have hchecked : resolveGroups s d = ((if d.groups.isEmpty then implicitGroups s
      else declaredGroups d.groups s.groupSizes) >>= fun groups =>
        if groups.any (·.threads = 0) then .error (.notPositive .threads) else .ok groups) := by
    unfold resolveGroups
    split <;> rfl
  rw [hchecked, bind_eq_ok_iff]
  simp only [check_eq_ok_iff]
  constructor
  · rintro ⟨asked, h, hany, rfl⟩
    obtain ⟨hfits, rfl⟩ := hasked.1 h
    exact ⟨⟨hfits, not_not.1 (mt (any_groupsIn_iff hfits).2 hany)⟩, rfl⟩
  · rintro ⟨⟨hfits, hthreads⟩, rfl⟩
    exact ⟨s.groupsIn d, hasked.2 ⟨hfits, rfl⟩,
      fun hany => (any_groupsIn_iff hfits).1 hany hthreads, rfl⟩

end Settings

/-! ### Specifications -/

namespace Spec

/-- The settings of a phase. -/
def phase (s : Spec) : Phase → PhaseSpec
  | .warmup => s.warmup
  | .measurement => s.measurement

/-- A specification that can be run with a task. -/
structure IsRunnable (s : Spec) (d : Declaration) : Prop where
  /-- The mode does not stand for several. -/
  mode : s.mode ≠ .all
  /-- The sizes that are given are for the groups that there are. -/
  groups : s.FitsGroups d
  /-- No group is without threads. -/
  threads : ∀ n ∈ s.threadCounts d, n ≠ 0
  /-- There is something to do in every iteration. -/
  length : ∀ phase, (s.phase phase).HasLength s.mode
  /-- Some iterations count. -/
  iterations : s.measurement.iterations ≠ some 0
  /-- There is time to wait for an answer. -/
  timeout : s.timeout ≠ some .zero

/-- A specification with its gaps filled. -/
def settled (s : Spec) (d : Declaration) : Settings where
  task := s.name
  mode := s.mode
  unit := s.unit.getD s.mode.defaultUnit
  warmup := ⟨.warmup, s.warmup.iterations.getD Settings.defaultIterations, s.warmup.lengthIn s.mode⟩
  measurement := ⟨.measurement, s.measurement.iterations.getD Settings.defaultIterations,
    s.measurement.lengthIn s.mode⟩
  groups := s.groupsIn d
  bindings := s.bindings
  syncIterations := s.syncIterations.getD true
  scale := s.scale.getD false
  failOnError := s.failOnError.getD true
  forks := s.forks.getD Settings.defaultForks
  warmupForks := s.warmupForks.getD Settings.defaultWarmupForks
  timeout := s.timeout.getD Settings.defaultTimeout

end Spec

namespace Settings

variable {s : Spec} {d : Declaration} {settings : Settings}

/-- Iterations that are not given are the default, so only a number that is given can be zero. -/
theorem iterations_getD_eq_zero_iff {iterations : Option UInt32} :
    iterations.getD defaultIterations = 0 ↔ iterations = some 0 := by
  rw [Option.getD_eq_iff]
  exact or_iff_left fun h => absurd h.2 (by decide)

/-- **What is settled by resolving a specification.** -/
theorem resolve_eq_ok_iff :
    resolve s d = .ok settings ↔ s.IsRunnable d ∧ settings = s.settled d := by
  have htimeout : (s.timeout.getD defaultTimeout).nanos = 0 ↔ s.timeout = some .zero :=
    nanos_getD_eq_zero_iff (Nat.succ_pos _)
  simp only [resolve, check_bind_eq_ok_iff, bind_eq_ok_iff, resolveGroups_eq_ok_iff,
    resolvePhase_eq_ok_iff]
  constructor
  · rintro ⟨hmode, _, ⟨⟨hfits, hthreads⟩, rfl⟩, _, ⟨hwarmup, rfl⟩, _, ⟨hmeasurement, rfl⟩,
      hpositive, hpatient, hsettings⟩
    cases hsettings
    have hlength : ∀ phase, (s.phase phase).HasLength s.mode := by
      rintro (_ | _)
      · exact hwarmup
      · exact hmeasurement
    exact ⟨⟨hmode, hfits, hthreads, hlength, mt iterations_getD_eq_zero_iff.2 hpositive,
      mt htimeout.2 hpatient⟩, rfl⟩
  · rintro ⟨h, rfl⟩
    exact ⟨h.mode, _, ⟨⟨h.groups, h.threads⟩, rfl⟩, _, ⟨h.length .warmup, rfl⟩, _,
      ⟨h.length .measurement, rfl⟩, mt iterations_getD_eq_zero_iff.1 h.iterations,
      mt htimeout.1 h.timeout, rfl⟩

/-- What running a trial relies on, wherever the settings come from. -/
structure IsSound (settings : Settings) (s : Spec) (d : Declaration) : Prop where
  /-- There is a group. -/
  groups : settings.groups ≠ []
  /-- Every group has a thread. -/
  threads : ∀ g ∈ settings.groups, g.threads ≠ 0
  /-- The groups are those that are declared, in their order, or the implicit one. -/
  names : settings.groups.map (·.name) =
    if d.groups = [] then [implicitGroup] else d.groups.map (·.name)
  /-- They have as many threads as they are to have. -/
  sizes : settings.groups.map (·.threads) = s.threadCounts d
  /-- Some iterations count. -/
  iterations : settings.measurement.count ≠ 0
  /-- There is time to wait for an answer. -/
  timeout : 0 < settings.timeout.nanos
  /-- There is something to do in every iteration. -/
  positive : ∀ phase, (settings.phase phase).length.isPositive
  /-- The iterations last as long as they are to last. -/
  length : ∀ phase, (settings.phase phase).length = (s.phase phase).lengthIn s.mode

theorem phase_settled (s : Spec) (d : Declaration) (phase : Phase) :
    (s.settled d).phase phase = ⟨phase, (s.phase phase).iterations.getD defaultIterations,
      (s.phase phase).lengthIn s.mode⟩ := by
  cases phase <;> rfl

theorem isSound_settled (h : s.IsRunnable d) : (s.settled d).IsSound s d where
  groups := by
    intro hnone
    have hnames := h.groups.map_name_groupsIn
    rw [show s.groupsIn d = [] from hnone, Declaration.groupNames] at hnames
    split at hnames
    · cases hnames
    · next hsome => exact hsome (List.map_eq_nil_iff.1 hnames.symm)
  threads := by
    intro g hg
    refine h.threads _ ?_
    rw [← h.groups.map_threads_groupsIn]
    exact List.mem_map_of_mem hg
  names := h.groups.map_name_groupsIn
  sizes := h.groups.map_threads_groupsIn
  iterations := mt iterations_getD_eq_zero_iff.1 h.iterations
  timeout := by
    refine Nat.pos_of_ne_zero fun hzero => h.timeout ?_
    exact (nanos_getD_eq_zero_iff (Nat.succ_pos _)).1 hzero
  positive := by
    intro phase
    rw [phase_settled]
    exact (h.length phase).isPositive_lengthIn
  length := by
    intro phase
    rw [phase_settled]

/-- **Exactly what can be run is resolved, and what it is resolved to is sound.** -/
theorem resolve_exactly (s : Spec) (d : Declaration) :
    ((∃ settings, resolve s d = .ok settings) ↔ s.IsRunnable d) ∧
      ∀ settings, resolve s d = .ok settings → settings.IsSound s d := by
  simp only [resolve_eq_ok_iff]
  refine ⟨⟨?_, ?_⟩, ?_⟩
  · rintro ⟨_, h, -⟩
    exact h
  · exact fun h => ⟨_, h, rfl⟩
  · rintro _ ⟨h, rfl⟩
    exact isSound_settled h

/-- A queue with two groups. -/
def queue : Declaration := ⟨"queue", .averageTime, [⟨"producers", 2⟩, ⟨"consumers", 2⟩], []⟩

/-- Single shots of it; that they are to take no time does not matter. -/
def queueShots : Spec where
  name := "queue"
  mode := .singleShot
  groupSizes := [3, 1]
  warmup := { time := some .zero }
  measurement := { batch := some 4, time := some .zero }

/-- They can be run, and in no other mode, nor with sizes for three groups. -/
theorem resolve_exactly_shots :
    resolve queueShots queue = .ok (queueShots.settled queue) ∧
      queueShots.IsRunnable queue ∧ (queueShots.settled queue).IsSound queueShots queue ∧
      ¬ (queueShots.withMode .throughput).IsRunnable queue ∧
      ¬ ({ queueShots with groupSizes := [3, 1, 1] } : Spec).IsRunnable queue := by
  have hresolve : resolve queueShots queue = .ok (queueShots.settled queue) := rfl
  have htime : resolve (queueShots.withMode .throughput) queue = .error (.notPositive .time) := rfl
  have hsizes : resolve { queueShots with groupSizes := [3, 1, 1] } queue =
      .error (.groupCount 2 3) := rfl
  refine ⟨hresolve, (resolve_exactly _ _).1.1 ⟨_, hresolve⟩, (resolve_exactly _ _).2 _ hresolve,
    fun h => ?_, fun h => ?_⟩
  · obtain ⟨settings, hsettings⟩ := (resolve_exactly _ _).1.2 h
    rw [htime] at hsettings
    cases hsettings
  · obtain ⟨settings, hsettings⟩ := (resolve_exactly _ _).1.2 h
    rw [hsizes] at hsettings
    cases hsettings

end Settings

end Microbench
