import Microbench.Proofs.Config.Layers
import Microbench.Proofs.Plan.Choices
import Microbench.Proofs.Spec.Order
import Microbench.Proofs.Worlds
import Microbench.Task.Registry

/-!
# A plan is the sorted product of tasks, modes and values

A plan is built task by task: the settings of the run are written into one specification,
which is then taken in every mode and with every choice of values, each of them is
resolved, and all are sorted at the end.  What comes out has every combination that is
asked for as often as it is asked for, and no other.

## Main definitions

* `Registry.Keyed` — every task is registered under its own name.
* `Plan.selected`, `Plan.identities` — the tasks that are selected, and the benchmarks of a
  task.
* `Plan.template` — what the benchmarks of a task have in common.
* `Plan.IsProduct` — what a plan is.

## Main results

* `build_ok`, `exists_of_mem_build` — where a plan and its specifications come from.
* `build_isProduct` — **a plan is the sorted product.**
-/

namespace Microbench

/-! ### Registered tasks -/

namespace Registry

variable {m : Type → Type}

/-- Every task is registered under its own name. -/
def Keyed (r : Registry m) : Prop := ∀ name entry, r.get? name = some entry → name = entry.id

theorem Keyed.register {r : Registry m} (h : r.Keyed) (e : TaskEntry m) : (r.register e).Keyed := by
  intro name entry hget
  rw [Registry.register, Dict.get?_insert] at hget
  split at hget
  · next heq =>
    cases hget
    exact heq
  · exact h name entry hget

theorem keyed_foldl_register (entries : List (TaskEntry m)) {r : Registry m} (h : r.Keyed) :
    (entries.foldl Registry.register r).Keyed := by
  induction entries generalizing r with
  | nil => exact h
  | cons e entries ih => exact ih (h.register e)

/-- Registering keeps tasks under their names. -/
theorem keyed_ofList (entries : List (TaskEntry m)) : (Registry.ofList entries).Keyed :=
  keyed_foldl_register entries fun _ _ h => nomatch h

variable {r : Registry m}

/-- What is declared by a registered task is found under its name. -/
theorem Keyed.get?_id (h : r.Keyed) {d : Declaration} (hd : d ∈ r.values.map (·.declaration)) :
    ∃ entry, r.get? d.id = some entry ∧ entry.declaration = d := by
  obtain ⟨entry, hentry, rfl⟩ := List.mem_map.1 hd
  obtain ⟨e, he, rfl⟩ := List.mem_map.1 hentry
  have hget := Dict.get?_of_mem he
  rw [h e.1 e.2 hget] at hget
  exact ⟨e.2, hget, rfl⟩

/-- No two registered tasks have one name. -/
theorem Keyed.nodup_ids (h : r.Keyed) :
    ((r.values.map (·.declaration)).map Declaration.id).Nodup := by
  have hkeys : (r.values.map (·.declaration)).map Declaration.id = r.keys := by
    rw [Dict.values, List.map_map, List.map_map]
    exact List.map_congr_left fun e he => (h e.1 e.2 (Dict.get?_of_mem he)).symm
  rw [hkeys, Dict.keys, List.Nodup, List.pairwise_map]
  exact r.ascending.imp fun {a b} hlt (heq : a.1 = b.1) => String.lt_irrefl _ (heq ▸ hlt)

end Registry

namespace Mode

theorem nodup_expand (mode : Mode) : mode.expand.Nodup := by
  cases mode <;> decide

end Mode

namespace Plan

/-! ### The specifications of one task -/

/-- What the specifications of a task have in common, from the settings of the run written into an
empty one. -/
def template (options : PlanOptions) (task : Declaration) (written : Spec) : Spec :=
  { written with
    groupSizes := options.groupSizes
    launch := { args := given options.launchArgs, before := given options.launchPrefix }
    params := if (declared options task).isEmpty then none else some (declared options task) }

/-- The specifications of a task differ in mode and bindings only. -/
theorem expand_ok {options : PlanOptions} {task : Declaration} {specs : List Spec}
    (h : expand options task = .ok specs) :
    ∃ written, options.runner.applied { name := task.id, mode := task.mode } = .ok written ∧
      specs = (options.mode.getD task.mode).expand.flatMap fun mode =>
        (choices (declared options task)).map fun bindings =>
          { template options task written with mode, bindings } := by
  unfold expand at h
  dsimp only at h
  split at h
  · next written hwritten =>
    rw [pure_bind] at h
    obtain ⟨values, hvalues, h⟩ := exists_of_bind_ok h
    cases paramValues_ok hvalues
    cases h
    exact ⟨written, hwritten, rfl⟩
  · cases h

/-- Only specifications that can be run are given out. -/
theorem runnable_ok {options : PlanOptions} {task : Declaration} {specs : List Spec}
    (h : runnable options task = .ok specs) :
    expand options task = .ok specs ∧
      ∀ s ∈ specs, ∃ settings, Settings.resolve s task = .ok settings := by
  obtain ⟨expanded, hexpand, h⟩ := exists_of_bind_ok h
  obtain ⟨⟨⟩, hresolved, h⟩ := exists_of_bind_ok h
  cases h
  refine ⟨hexpand, fun s hs => ?_⟩
  have hs := ok_of_forM_ok hresolved s hs
  split at hs
  · next settings hresolve => exact ⟨settings, hresolve⟩
  · cases hs

/-- What has been given out for a task is in its specifications' common form. -/
theorem eq_template_of_mem {options : PlanOptions} {task : Declaration} {specs : List Spec}
    (h : expand options task = .ok specs) :
    ∃ written, options.runner.applied { name := task.id, mode := task.mode } = .ok written ∧
      ∀ s ∈ specs, s.mode ∈ (options.mode.getD task.mode).expand ∧
        s = { template options task written with mode := s.mode, bindings := s.bindings } := by
  obtain ⟨written, hwritten, rfl⟩ := expand_ok h
  refine ⟨written, hwritten, fun s hs => ?_⟩
  obtain ⟨mode, hmode, hs⟩ := List.mem_flatMap.1 hs
  obtain ⟨bindings, -, rfl⟩ := List.mem_map.1 hs
  exact ⟨hmode, rfl⟩

/-! ### The benchmarks of one task -/

/-- The benchmarks of a task: every mode that is asked for with every choice of values. -/
def identities (options : PlanOptions) (task : Declaration) : List Spec.Identity :=
  (options.mode.getD task.mode).expand.flatMap fun mode =>
    (assignments (declared options task)).map fun bindings => ⟨mode, task.id, bindings⟩

/-- The specifications of a task are for its benchmarks. -/
theorem identities_perm {options : PlanOptions} {task : Declaration} {specs : List Spec}
    (h : expand options task = .ok specs) :
    (specs.map Spec.identity).Perm (identities options task) := by
  obtain ⟨written, hwritten, rfl⟩ := expand_ok h
  have hname : (template options task written).name = task.id := Runner.applied_name hwritten
  simp only [List.map_flatMap, List.map_map, Function.comp_def, Spec.identity, hname]
  exact List.Perm.flatMap_left _ fun mode _ => (choices_perm _).map _

/-- A benchmark of a task bears its name. -/
theorem name_of_mem_identities {options : PlanOptions} {task : Declaration} {i : Spec.Identity}
    (h : i ∈ identities options task) : i.name = task.id := by
  obtain ⟨mode, -, hi⟩ := List.mem_flatMap.1 h
  obtain ⟨bindings, -, rfl⟩ := List.mem_map.1 hi
  rfl

/-- With distinct values a task has no benchmark twice. -/
theorem nodup_identities {options : PlanOptions} {task : Declaration}
    (h : ∀ p ∈ task.params, (valuesOf options p).Nodup) : (identities options task).Nodup := by
  have hassignments := nodup_assignments (nodup_values_of_mem_declared h)
  rw [identities, List.nodup_flatMap]
  refine ⟨fun mode _ => hassignments.map fun a b heq => (Spec.Identity.mk.inj heq).2.2, ?_⟩
  refine (Mode.nodup_expand _).imp fun {mode mode'} hne i hi hi' => hne ?_
  obtain ⟨a, -, rfl⟩ := List.mem_map.1 hi
  obtain ⟨b, -, heq⟩ := List.mem_map.1 hi'
  exact (Spec.Identity.mk.inj heq).1.symm

/-- Tasks of different names have different benchmarks. -/
theorem nodup_flatMap_identities {options : PlanOptions} {tasks : List Declaration}
    (hids : (tasks.map Declaration.id).Nodup)
    (h : ∀ d ∈ tasks, ∀ p ∈ d.params, (valuesOf options p).Nodup) :
    (tasks.flatMap (identities options)).Nodup := by
  rw [List.nodup_flatMap]
  refine ⟨fun d hd => nodup_identities (h d hd), ?_⟩
  refine (List.pairwise_map.1 hids).imp fun {d d'} hne i hi hi' => hne ?_
  rw [← name_of_mem_identities hi, ← name_of_mem_identities hi']

/-! ### The whole plan -/

/-- A plan is sorted from the specifications of the tasks that are selected. -/
theorem build_ok {tasks : List Declaration} {selects : String → Bool} {options : PlanOptions}
    {plan : List Spec} (h : build tasks selects options = .ok plan) :
    ∃ specs, List.Forall₂ (fun d l => runnable options d = .ok l)
        (tasks.filter fun d => selects d.id) specs ∧
      plan = specs.flatten.mergeSort Spec.notAfter := by
  unfold build at h
  dsimp only at h
  split at h
  · cases h
  · obtain ⟨specs, hspecs, h⟩ := exists_of_bind_ok h
    cases h
    exact ⟨specs, forall₂_of_mapM_ok hspecs, rfl⟩

/-- What a plan is made of has the benchmarks of the tasks. -/
theorem flatten_identities_perm {options : PlanOptions} {tasks : List Declaration}
    {specs : List (List Spec)}
    (h : List.Forall₂ (fun d l => runnable options d = .ok l) tasks specs) :
    (specs.flatten.map Spec.identity).Perm (tasks.flatMap (identities options)) := by
  induction h with
  | nil => exact .nil
  | cons hrunnable _ ih =>
    rw [List.flatten_cons, List.map_append, List.flatMap_cons]
    exact (identities_perm (runnable_ok hrunnable).1).append ih

theorem exists_of_mem_flatten {options : PlanOptions} {tasks : List Declaration}
    {specs : List (List Spec)}
    (h : List.Forall₂ (fun d l => runnable options d = .ok l) tasks specs) {s : Spec}
    (hs : s ∈ specs.flatten) : ∃ d ∈ tasks, ∃ l, runnable options d = .ok l ∧ s ∈ l := by
  induction h with
  | nil => cases hs
  | cons hrunnable _ ih =>
    rcases List.mem_append.1 hs with hs | hs
    · exact ⟨_, List.mem_cons_self, _, hrunnable, hs⟩
    · obtain ⟨d, hd, l, hl⟩ := ih hs
      exact ⟨d, List.mem_cons_of_mem _ hd, l, hl⟩

/-- Every specification of a plan has been given out for one of the tasks. -/
theorem exists_runnable_of_mem_build {tasks : List Declaration} {selects : String → Bool}
    {options : PlanOptions} {plan : List Spec} (h : build tasks selects options = .ok plan)
    {s : Spec} (hs : s ∈ plan) :
    ∃ d ∈ tasks, ∃ specs, runnable options d = .ok specs ∧ s ∈ specs := by
  obtain ⟨specs, hspecs, rfl⟩ := build_ok h
  obtain ⟨d, hd, l, hrunnable, hs⟩ := exists_of_mem_flatten hspecs (List.mem_mergeSort.1 hs)
  exact ⟨d, List.mem_of_mem_filter hd, l, hrunnable, hs⟩

/-- What has been given out for a task bears its name. -/
theorem name_of_mem_runnable {options : PlanOptions} {d : Declaration} {specs : List Spec}
    (h : runnable options d = .ok specs) {s : Spec} (hs : s ∈ specs) : s.name = d.id := by
  obtain ⟨written, hwritten, hform⟩ := eq_template_of_mem (runnable_ok h).1
  rw [(hform s hs).2]
  exact Runner.applied_name hwritten

variable {m : Type → Type}

/-- The tasks whose names are selected. -/
def selected (registry : Registry m) (selects : String → Bool) : List Declaration :=
  (registry.values.map (·.declaration)).filter fun d => selects d.id

/-- What a plan is: every combination that is asked for, in order, and ready to be run. -/
structure IsProduct (registry : Registry m) (selects : String → Bool) (options : PlanOptions)
    (plan : List Spec) : Prop where
  /-- The benchmarks are those of the selected tasks, each as often as it is asked for. -/
  identities : (plan.map Spec.identity).Perm
    ((selected registry selects).flatMap (identities options))
  /-- No mode stands for several. -/
  concrete : ∀ s ∈ plan, s.mode ≠ .all
  /-- The benchmarks ascend. -/
  ascending : plan.Pairwise fun a b => a.identity.compare b.identity ≠ .gt
  /-- Each can be run with what is registered under its name. -/
  resolved : ∀ s ∈ plan, ∃ entry settings, registry.get? s.name = some entry ∧
    Settings.resolve s entry.declaration = .ok settings
  /-- Those of one task differ in mode and bindings only. -/
  alike : ∀ a ∈ plan, ∀ b ∈ plan, a.name = b.name →
    { a with mode := b.mode, bindings := b.bindings } = b
  /-- With distinct values no two of them tie. -/
  distinct : (∀ d ∈ selected registry selects, ∀ p ∈ d.params, (valuesOf options p).Nodup) →
    plan.Pairwise fun a b => a.identity.compare b.identity ≠ .eq

/-- Every specification of a plan has been given out for a registered task, under whose name it
goes. -/
theorem exists_of_mem_build {registry : Registry m} (hkeyed : registry.Keyed)
    {selects : String → Bool} {options : PlanOptions} {plan : List Spec}
    (h : build (registry.values.map (·.declaration)) selects options = .ok plan) {s : Spec}
    (hs : s ∈ plan) :
    ∃ entry specs, registry.get? s.name = some entry ∧ entry.declaration.id = s.name ∧
      runnable options entry.declaration = .ok specs ∧ s ∈ specs := by
  obtain ⟨d, hd, l, hrunnable, hs⟩ := exists_runnable_of_mem_build h hs
  obtain ⟨entry, hget, rfl⟩ := hkeyed.get?_id hd
  have hname := name_of_mem_runnable hrunnable hs
  exact ⟨entry, l, hname ▸ hget, hname.symm, hrunnable, hs⟩

/-- **A plan is the sorted product of the selected tasks, their modes and the values of their
parameters**, whatever is registered, selected and asked for. -/
theorem build_isProduct (entries : List (TaskEntry m)) (selects : String → Bool)
    (options : PlanOptions) (plan : List Spec)
    (h : build ((Registry.ofList entries).values.map (·.declaration)) selects options = .ok plan) :
    IsProduct (Registry.ofList entries) selects options plan := by
  have hkeyed := Registry.keyed_ofList entries
  obtain ⟨specs, hspecs, hplan⟩ := build_ok h
  have hidentities : (plan.map Spec.identity).Perm
      ((selected (Registry.ofList entries) selects).flatMap (identities options)) := by
    rw [hplan]
    exact ((List.mergeSort_perm _ _).map _).trans (flatten_identities_perm hspecs)
  have hascending : plan.Pairwise fun a b => a.identity.compare b.identity ≠ .gt :=
    hplan ▸ Spec.pairwise_mergeSort_notAfter _
  refine ⟨hidentities, fun s hs hall => ?_, hascending, fun s hs => ?_, fun a ha b hb hname => ?_,
    fun hvalues => ?_⟩
  -- No mode that is expanded is left.
  · obtain ⟨entry, specs, -, -, hrunnable, hs⟩ := exists_of_mem_build hkeyed h hs
    obtain ⟨written, -, hform⟩ := eq_template_of_mem (runnable_ok hrunnable).1
    exact Mode.all_notMem_expand _ (hall ▸ (hform s hs).1)
  · obtain ⟨entry, specs, hget, -, hrunnable, hs⟩ := exists_of_mem_build hkeyed h hs
    obtain ⟨settings, hresolve⟩ := (runnable_ok hrunnable).2 s hs
    exact ⟨entry, settings, hget, hresolve⟩
  -- One name is that of one task, whose specifications have one form.
  · obtain ⟨entry, specs, hget, -, hrunnable, ha⟩ := exists_of_mem_build hkeyed h ha
    obtain ⟨entry', specs', hget', -, hrunnable', hb⟩ := exists_of_mem_build hkeyed h hb
    cases hget.symm.trans (hname ▸ hget')
    cases hrunnable.symm.trans hrunnable'
    obtain ⟨written, -, hform⟩ := eq_template_of_mem (runnable_ok hrunnable).1
    rw [(hform a ha).2, (hform b hb).2]
  -- What is in order and has no benchmark twice is in strict order.
  · have hids : ((selected (Registry.ofList entries) selects).map Declaration.id).Nodup :=
      hkeyed.nodup_ids.sublist (List.filter_sublist.map _)
    have hnodup := hidentities.nodup_iff.2 (nodup_flatMap_identities hids hvalues)
    exact (Spec.pairwise_compare_eq_lt hascending hnodup).imp fun hlt heq =>
      nomatch hlt.symm.trans heq

/-! ### A queue and a stack -/

/-- A queue of two sizes and one kind, and a stack without parameters. -/
def shelf : List (TaskEntry (StateM Nat)) :=
  [{ TaskEntry.idle "queue" with
      declaration := ⟨"queue", .averageTime, [], [⟨"size", ["8", "16"]⟩, ⟨"kind", ["fifo"]⟩]⟩ },
    TaskEntry.idle "stack"]

/-- Names with a `q` in them. -/
def anyQueue (name : String) : Bool := name.toList.contains 'q'

/-- Single shots of both kinds of queue. -/
def bothKinds : PlanOptions where
  mode := some .singleShot
  params := .ofList [("kind", ["lifo", "fifo"])]

/-- The specification of one of them. -/
def shot (kind size : String) : Spec where
  name := "queue"
  mode := .singleShot
  params := some (.ofList [("kind", ["lifo", "fifo"]), ("size", ["8", "16"])])
  bindings := .ofList [("kind", kind), ("size", size)]

/-- Their order goes by the texts of the values, not by how these were listed. -/
def shots : List Spec := [shot "fifo" "16", shot "fifo" "8", shot "lifo" "16", shot "lifo" "8"]

theorem build_shelf : build ((Registry.ofList shelf).values.map (·.declaration)) anyQueue
    bothKinds = .ok shots := by
  have hsorted : [shot "lifo" "8", shot "lifo" "16", shot "fifo" "8", shot "fifo" "16"].mergeSort
      Spec.notAfter = shots :=
    Spec.mergeSort_notAfter_eq (List.isPerm_iff.1 (by decide +kernel)) (by decide +kernel)
  rw [← hsorted]
  rfl

/-- Of the two tasks the queue is selected; the kinds are those that are asked for, the sizes its
own. -/
theorem build_isProduct_shelf :
    build ((Registry.ofList shelf).values.map (·.declaration)) anyQueue bothKinds =
      .ok shots ∧
    IsProduct (Registry.ofList shelf) anyQueue bothKinds shots :=
  ⟨build_shelf, build_isProduct shelf anyQueue bothKinds shots build_shelf⟩

end Plan

end Microbench
