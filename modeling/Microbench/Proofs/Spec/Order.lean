import Microbench.Spec

/-!
# The order of benchmarks

Benchmarks are ordered by mode, then by name, then by their bindings.  The order is a
total one in which only equal identities tie, so a list sorted by it is ascending, and
strictly so when no benchmark occurs twice.

## Main definitions

* `Spec.compareEntry` — the order of entries, of which that of bindings is made.

## Main results

* `Identity.compare_eq_iff` — only equal benchmarks tie.
* `pairwise_mergeSort_notAfter` — sorting puts benchmarks in ascending order.
* `pairwise_compare_eq_lt` — in an ascending list without repetitions no two benchmarks tie.
* `mergeSort_notAfter_eq` — there is only one such order.
-/

namespace Microbench

namespace Spec

/-- The order of entries: by key, then by value. -/
def compareEntry : String × String → String × String → Ordering :=
  compareLex (compareOn Prod.fst) (compareOn Prod.snd)

instance : Std.TransCmp compareEntry :=
  inferInstanceAs (Std.TransCmp (compareLex (compareOn Prod.fst) (compareOn Prod.snd)))

instance : Std.LawfulEqCmp compareEntry where
  eq_of_compare {a b} h := by
    have hboth : a.1 = b.1 ∧ a.2 = b.2 := by
      simpa only [compareEntry, compareLex, compareOn, Ordering.then_eq_eq,
        Std.LawfulEqOrd.compare_eq_iff_eq] using h
    exact Prod.ext hboth.1 hboth.2

/-- Bindings are compared entry by entry. -/
theorem compareEntries_eq : compareEntries = List.compareLex compareEntry := by
  funext as bs
  induction as generalizing bs with
  | nil => cases bs <;> rfl
  | cons a as ih =>
    cases bs with
    | nil => rfl
    | cons b bs =>
      rw [compareEntries, ih, List.compareLex_cons_cons]
      rfl

instance : Std.TransCmp compareEntries :=
  compareEntries_eq ▸ inferInstanceAs (Std.TransCmp (List.compareLex compareEntry))

instance : Std.LawfulEqCmp compareEntries :=
  compareEntries_eq ▸ inferInstanceAs (Std.LawfulEqCmp (List.compareLex compareEntry))

namespace Identity

/-- The order by bindings alone. -/
def compareBindings (a b : Identity) : Ordering :=
  compareEntries a.bindings.toList b.bindings.toList

instance : Std.TransCmp compareBindings where
  eq_swap := (inferInstance : Std.OrientedCmp compareEntries).eq_swap
  isLE_trans := (inferInstance : Std.TransCmp compareEntries).isLE_trans

instance : Std.TransCmp Identity.compare :=
  inferInstanceAs (Std.TransCmp (compareLex
    (compareLex (compareOn fun a : Identity => a.mode.rank) (compareOn Identity.name))
    compareBindings))

/-- Only equal benchmarks tie. -/
theorem compare_eq_iff {a b : Identity} : a.compare b = .eq ↔ a = b := by
  constructor
  · intro h
    obtain ⟨⟨hrank, hname⟩, hentries⟩ : (a.mode.rank = b.mode.rank ∧ a.name = b.name) ∧
        a.bindings.toList = b.bindings.toList := by
      simpa only [Identity.compare, Ordering.then_eq_eq, Std.LawfulEqOrd.compare_eq_iff_eq,
        Std.LawfulEqCmp.compare_eq_iff_eq] using h
    cases a
    cases b
    cases Mode.rank_inj hrank
    cases hname
    cases Dict.ext_toList hentries
    rfl
  · rintro rfl
    exact Std.ReflCmp.compare_self

end Identity

theorem notAfter_eq (a b : Spec) : notAfter a b = (a.identity.compare b.identity).isLE := by
  unfold notAfter
  cases a.identity.compare b.identity <;> rfl

theorem notAfter_trans (a b c : Spec) (hab : notAfter a b) (hbc : notAfter b c) :
    notAfter a c := by
  rw [notAfter_eq] at hab hbc ⊢
  exact Std.TransCmp.isLE_trans hab hbc

theorem notAfter_total (a b : Spec) : notAfter a b || notAfter b a := by
  have hswap : b.identity.compare a.identity = (a.identity.compare b.identity).swap :=
    Std.OrientedCmp.eq_swap
  rw [notAfter_eq, notAfter_eq, hswap]
  cases a.identity.compare b.identity <;> rfl

/-- **Sorting puts benchmarks in ascending order.** -/
theorem pairwise_mergeSort_notAfter (specs : List Spec) :
    (specs.mergeSort notAfter).Pairwise fun a b => a.identity.compare b.identity ≠ .gt := by
  refine (List.pairwise_mergeSort notAfter_trans notAfter_total specs).imp fun h => ?_
  simpa [notAfter] using h

/-- In an ascending list in which no benchmark occurs twice, none ties with another. -/
theorem pairwise_compare_eq_lt {specs : List Spec}
    (hascending : specs.Pairwise fun a b => a.identity.compare b.identity ≠ .gt)
    (hnodup : (specs.map identity).Nodup) :
    specs.Pairwise fun a b => a.identity.compare b.identity = .lt := by
  have hne : specs.Pairwise fun a b => a.identity ≠ b.identity := List.pairwise_map.1 hnodup
  refine (hascending.and hne).imp fun {a b} ⟨hgt, hne⟩ => ?_
  have htie : a.identity.compare b.identity ≠ .eq := fun h => hne (Identity.compare_eq_iff.1 h)
  cases hcompare : a.identity.compare b.identity with
  | lt => rfl
  | eq => exact absurd hcompare htie
  | gt => exact absurd hcompare hgt

/-- **Sorting gives the only strict order** of the same benchmarks. -/
theorem mergeSort_notAfter_eq {specs sorted : List Spec} (hperm : sorted.Perm specs)
    (hsorted : sorted.Pairwise fun a b => a.identity.compare b.identity = .lt) :
    specs.mergeSort notAfter = sorted := by
  have hsame : (specs.mergeSort notAfter).Perm sorted := (List.mergeSort_perm _ _).trans hperm.symm
  have hnodup : (sorted.map identity).Nodup :=
    List.pairwise_map.2 (hsorted.imp fun hlt heq =>
      nomatch hlt.symm.trans (Identity.compare_eq_iff.2 heq))
  have hlt := pairwise_compare_eq_lt (pairwise_mergeSort_notAfter specs)
    ((hsame.map identity).nodup_iff.2 hnodup)
  -- Of the same benchmarks there are no two strict orders, as no two of them are below each other.
  refine List.Perm.eq_of_pairwise (fun a b _ _ hab hba => ?_) hlt hsorted hsame
  exact nomatch (Std.OrientedCmp.gt_of_lt hab).symm.trans hba

end Spec

end Microbench
