import Mathlib.Data.List.Basic
import Microbench.CommandLine.Run
import Microbench.Proofs.Text.Blank

/-!
# Names of probes on their way to a worker

A worker is told which probes to attach by a text with their names.  It reads back the
names that were put together, as long as they are names of built-in probes; and a
selection names no others.

## Main results

* `probes_builtIn` — a selection only names probes that there are.
* `probeNames_intercalate` — their names are read back.
-/

namespace Microbench

namespace Text

/-- A text without the mark is one piece. -/
theorem pieces_of_notMem {mark : Char} {cs : List Char} (h : mark ∉ cs) :
    pieces mark cs = [cs] := by
  induction cs with
  | nil => rfl
  | cons c cs ih =>
    rw [List.mem_cons, not_or] at h
    obtain ⟨hc, hcs⟩ := h
    rw [pieces, if_neg (Ne.symm hc), ih hcs]

/-- A piece ends at the first mark. -/
theorem pieces_append {mark : Char} {cs : List Char} (h : mark ∉ cs) (rest : List Char) :
    pieces mark (cs ++ mark :: rest) = cs :: pieces mark rest := by
  induction cs with
  | nil => rw [List.nil_append, pieces, if_pos rfl]
  | cons c cs ih =>
    rw [List.mem_cons, not_or] at h
    obtain ⟨hc, hcs⟩ := h
    rw [List.cons_append, pieces, if_neg (Ne.symm hc), ih hcs]

/-- Pieces that are put together are found again. -/
theorem pieces_intercalate {mark : Char} {parts : List (List Char)} (hne : parts ≠ [])
    (h : ∀ part ∈ parts, mark ∉ part) : pieces mark ([mark].intercalate parts) = parts := by
  induction parts with
  | nil => exact absurd rfl hne
  | cons part parts ih =>
    obtain ⟨hpart, hparts⟩ := List.forall_mem_cons.1 h
    cases parts with
    | nil => rw [List.intercalate_singleton, pieces_of_notMem hpart]
    | cons next parts =>
      rw [List.intercalate_cons_cons, List.append_assoc, List.singleton_append,
        pieces_append hpart, ih (List.cons_ne_nil _ _) hparts]

end Text

namespace Selection

variable {config : ProfilersConfig} {s t : Selection}

/-- One more profiler is no probe that there is not. -/
theorem builtIn_attach {name : String} (h : attach config s name = .ok t)
    (hs : ∀ name ∈ s.probes, Probe.builtIn.any (·.1 = name)) :
    ∀ name ∈ t.probes, Probe.builtIn.any (·.1 = name) := by
  unfold attach at h
  split at h
  · next hname =>
    cases h
    rw [List.forall_mem_append]
    exact ⟨hs, List.forall_mem_singleton.2 hname⟩
  · split at h
    · split at h
      · cases h
        exact hs
      · cases h
    · cases h

/-- **A selection only names probes that there are.** -/
theorem probes_builtIn {names : List String} (h : resolve names config = .ok t) :
    ∀ name ∈ t.probes, Probe.builtIn.any (·.1 = name) := by
  have hfold : ∀ (names : List String) (s : Selection), names.foldlM (attach config) s = .ok t →
      (∀ name ∈ s.probes, Probe.builtIn.any (·.1 = name)) →
      ∀ name ∈ t.probes, Probe.builtIn.any (·.1 = name) := by
    intro names
    induction names with
    | nil =>
      intro s h hs
      cases h
      exact hs
    | cons name names ih =>
      intro s h hs
      rw [List.foldlM_cons] at h
      cases hattach : attach config s name with
      | error e =>
        rw [hattach] at h
        cases h
      | ok next =>
        rw [hattach] at h
        exact ih next h (builtIn_attach hattach hs)
  exact hfold names {} h fun name hname => by cases hname

end Selection

/-- There is one probe, and its name is a plain word. -/
theorem Probe.plain_of_builtIn {name : String} (h : Probe.builtIn.any (·.1 = name)) :
    name.toList ≠ [] ∧ ',' ∉ name.toList ∧ Text.trim name.toList = name.toList := by
  have hname : Probe.usageName = name := by simpa [builtIn] using h
  subst hname
  decide +kernel

/-- A worker finds the probes that there are. -/
theorem Conductor.exists_probesNamed {m : Type → Type} [Monad m] (host : Host m)
    {names : List String} (h : ∀ name ∈ names, Probe.builtIn.any (·.1 = name)) :
    ∃ probes, probesNamed host names = .ok probes := by
  induction names with
  | nil => exact ⟨[], rfl⟩
  | cons name names ih =>
    obtain ⟨hname, hnames⟩ := List.forall_mem_cons.1 h
    obtain ⟨probes, hprobes⟩ := ih hnames
    have husage : Probe.usageName = name := by simpa [Probe.builtIn] using hname
    subst husage
    refine ⟨.usage host :: probes, ?_⟩
    rw [probesNamed, List.mapM_cons]
    rw [probesNamed] at hprobes
    rw [hprobes]
    rfl

/-- **Names of probes are read back** by the worker that is told them. -/
theorem CommandLine.probeNames_intercalate {names : List String}
    (h : ∀ name ∈ names, Probe.builtIn.any (·.1 = name)) :
    probeNames (",".intercalate names) = names := by
  have hplain := fun name hname => Probe.plain_of_builtIn (h name hname)
  cases names with
  | nil => rfl
  | cons first names =>
    have hpieces : Text.pieces ',' (",".intercalate (first :: names)).toList =
        (first :: names).map String.toList := by
      rw [String.toList_intercalate]
      refine Text.pieces_intercalate (by simp) fun part hpart => ?_
      obtain ⟨name, hname, rfl⟩ := List.mem_map.1 hpart
      exact (hplain name hname).2.1
    unfold probeNames
    rw [hpieces, List.map_map, List.filterMap_map]
    refine (List.filterMap_congr fun name hname => ?_).trans List.filterMap_some
    obtain ⟨hne, -, htrim⟩ := hplain name hname
    simp only [Function.comp, htrim, List.isEmpty_iff, hne, if_false, String.ofList_toList]

end Microbench
