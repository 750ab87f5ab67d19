import Mathlib.Data.List.Sections
import Mathlib.Data.Multiset.Bind
import Microbench.Plan
import Microbench.Proofs.Dict

/-!
# The choices of parameter values

A task declares its parameters with their values, and the run may put other values in
their place.  The trials of a task try every way to give each parameter one of its values,
and the loop over the parameters that lists these ways lists each as often as the
cartesian product of the values has it.

## Main definitions

* `Plan.declared` — the parameters of a task with the values that are tried.
* `Plan.assignments` — the cartesian product of the values.

## Main results

* `choices_perm` — the choices are the cartesian product.
* `mem_assignments` — a choice gives each parameter one of its values, and nothing else.
* `nodup_assignments` — distinct values make distinct choices.
-/

namespace Microbench

namespace Plan

/-! ### The values that are tried -/

/-- The values of a parameter: those chosen for the run in place of its own. -/
def valuesOf (options : PlanOptions) (p : Param) : List String :=
  (options.params.get? p.name).getD p.values

/-- The parameters of a task with the values that are tried. -/
def declared (options : PlanOptions) (task : Declaration) : Dict (List String) :=
  .ofList (task.params.map fun p => (p.name, valuesOf options p))

theorem foldlM_paramValues {options : PlanOptions} {params : List Param}
    {d values : Dict (List String)}
    (h : params.foldlM (fun d p =>
      if (valuesOf options p).isEmpty then Except.error (PlanError.emptyParam p.name)
      else Except.ok (d.insert p.name (valuesOf options p))) d = .ok values) :
    values = params.foldl (fun d p => d.insert p.name (valuesOf options p)) d := by
  induction params generalizing d with
  | nil =>
    cases h
    rfl
  | cons p params ih =>
    rw [List.foldlM_cons] at h
    split at h
    · cases h
    · exact ih h

/-- The values of the parameters, if none is left without any. -/
theorem paramValues_ok {options : PlanOptions} {task : Declaration} {values : Dict (List String)}
    (h : paramValues options.params task.params = .ok values) : values = declared options task := by
  rw [declared, Dict.ofList, List.foldl_map]
  exact foldlM_paramValues h

/-! ### The cartesian product -/

/-- A parameter with each of its values. -/
def candidates (e : String × List String) : List (String × String) := e.2.map fun v => (e.1, v)

/-- The cartesian product of the values: every way to pick one candidate of each parameter. -/
def assignments (params : Dict (List String)) : List (Dict String) :=
  (params.toList.map candidates).sections.map Dict.ofList

/-- Two independent picks can be made in either order. -/
theorem flatMap_map_perm {α β γ : Type} (l : List α) (l' : List β) (f : α → β → γ) :
    (l.flatMap fun a => l'.map fun b => f a b).Perm (l'.flatMap fun b => l.map fun a => f a b) := by
  rw [← Multiset.coe_eq_coe, ← Multiset.coe_bind, ← Multiset.coe_bind]
  exact Multiset.bind_map_comm (l : Multiset α) (l' : Multiset β)

/-- What the loop has listed after some parameters is extended by every pick of the others. -/
theorem foldl_choices_perm (entries : List (String × List String)) (chosen : List (Dict String)) :
    (entries.foldl (fun chosen (name, values) =>
        chosen.flatMap fun bindings => values.map fun v => bindings.insert name v) chosen).Perm
      (chosen.flatMap fun bindings => (entries.map candidates).sections.map fun picks =>
        picks.foldl (fun d e => d.insert e.1 e.2) bindings) := by
  induction entries generalizing chosen with
  | nil => simp [List.sections]
  | cons e entries ih =>
    -- The loop picks the value of this parameter first, the product picks it last.
    refine (ih _).trans ?_
    rw [List.flatMap_assoc]
    refine List.Perm.flatMap_left _ fun bindings _ => ?_
    simpa only [List.map_cons, List.sections, candidates, List.flatMap_map, List.map_flatMap,
      List.map_map, Function.comp_def, List.foldl_cons] using
      flatMap_map_perm e.2 (entries.map candidates).sections fun v picks =>
        picks.foldl (fun d e => d.insert e.1 e.2) (bindings.insert e.1 v)

/-- **The choices are the cartesian product of the values.** -/
theorem choices_perm (params : Dict (List String)) :
    (choices params).Perm (assignments params) := by
  refine (foldl_choices_perm params.toList [.empty]).trans ?_
  rw [List.flatMap_singleton]
  exact .refl _

/-! ### What a choice is -/

/-- A pick takes the parameters in their order. -/
theorem forall₂_of_mem_sections {entries : List (String × List String)}
    {picks : List (String × String)} :
    picks ∈ (entries.map candidates).sections ↔
      List.Forall₂ (fun pick e => pick.1 = e.1 ∧ pick.2 ∈ e.2) picks entries := by
  rw [List.mem_sections, List.forall₂_map_right_iff]
  refine ⟨fun h => h.imp fun pick e hmem => ?_, fun h => h.imp fun pick e hmem => ?_⟩
  · obtain ⟨v, hv, rfl⟩ := List.mem_map.1 hmem
    exact ⟨rfl, hv⟩
  · exact List.mem_map.2 ⟨pick.2, hmem.2, Prod.ext hmem.1.symm rfl⟩

/-- Picked names ascend as those of the parameters do. -/
theorem pairwise_of_mem_sections {entries : List (String × List String)}
    (hascending : entries.Pairwise fun a b => a.1 < b.1) {picks : List (String × String)}
    (h : picks ∈ (entries.map candidates).sections) : picks.Pairwise fun a b => a.1 < b.1 := by
  have hnames : picks.map Prod.fst = entries.map Prod.fst := by
    have hpicks := (forall₂_of_mem_sections.1 h).imp fun _ _ => And.left
    rwa [← List.forall₂_eq_eq_eq, List.forall₂_map_left_iff, List.forall₂_map_right_iff]
  rw [← List.pairwise_map (f := Prod.fst) (R := (· < ·)), hnames]
  exact List.pairwise_map.2 hascending

theorem toList_ofList_of_mem_sections {params : Dict (List String)}
    {picks : List (String × String)}
    (h : picks ∈ (params.toList.map candidates).sections) : (Dict.ofList picks).toList = picks :=
  Dict.toList_ofList (pairwise_of_mem_sections params.ascending h)

/-- **A choice gives each parameter one of its values, and nothing else.** -/
theorem mem_assignments {params : Dict (List String)} {bindings : Dict String} :
    bindings ∈ assignments params ↔
      List.Forall₂ (fun binding e => binding.1 = e.1 ∧ binding.2 ∈ e.2)
        bindings.toList params.toList := by
  rw [← forall₂_of_mem_sections, assignments, List.mem_map]
  constructor
  · rintro ⟨picks, hpicks, rfl⟩
    rwa [toList_ofList_of_mem_sections hpicks]
  · exact fun h => ⟨bindings.toList, h, Dict.ofList_toList bindings⟩

/-! ### No choice twice -/

/-- Picks from lists without repetitions are different picks. -/
theorem nodup_sections {α : Type} {lists : List (List α)} (h : ∀ l ∈ lists, l.Nodup) :
    lists.sections.Nodup := by
  induction lists with
  | nil => exact List.nodup_singleton _
  | cons l lists ih =>
    obtain ⟨hl, hlists⟩ := List.forall_mem_cons.1 h
    rw [List.sections, List.nodup_flatMap]
    refine ⟨fun picks _ => hl.map fun a b heq => (List.cons.inj heq).1, ?_⟩
    -- Picks that start with different tails differ in their tails.
    refine (ih hlists).imp fun {picks picks'} hne x hx hx' => hne ?_
    obtain ⟨a, -, rfl⟩ := List.mem_map.1 hx
    obtain ⟨b, -, heq⟩ := List.mem_map.1 hx'
    exact (List.cons.inj heq).2.symm

/-- **Distinct values make distinct choices.** -/
theorem nodup_assignments {params : Dict (List String)} (h : ∀ e ∈ params.toList, e.2.Nodup) :
    (assignments params).Nodup := by
  refine List.Nodup.map_on (fun picks hpicks picks' hpicks' heq => ?_) (nodup_sections ?_)
  · rw [← toList_ofList_of_mem_sections hpicks, heq, toList_ofList_of_mem_sections hpicks']
  · intro l hl
    obtain ⟨e, he, rfl⟩ := List.mem_map.1 hl
    exact (h e he).map fun a b heq => congrArg Prod.snd heq

/-- The values that are tried for a parameter are those of a declared one. -/
theorem nodup_values_of_mem_declared {options : PlanOptions} {task : Declaration}
    (h : ∀ p ∈ task.params, (valuesOf options p).Nodup) :
    ∀ e ∈ (declared options task).toList, e.2.Nodup := by
  intro e he
  obtain ⟨p, hp, rfl⟩ := List.mem_map.1 (Dict.mem_of_mem_ofList he)
  exact h p hp

end Plan

end Microbench
