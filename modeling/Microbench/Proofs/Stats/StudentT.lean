import Mathlib.Data.List.Chain
import Mathlib.Order.Fin.Basic
import Mathlib.Order.Monotone.Basic
import Microbench.Proofs.Number.Quotients
import Microbench.Stats.StudentT

/-!
# Critical values as a function

Critical values are looked up in a table, in the row of the degrees of freedom and in the column
of the quantile.  What is looked up is always there, and the value grows with the quantile and
falls as the degrees of freedom grow, as those of the distribution do.

## Main definitions

* `StudentT.quantileAt`, `StudentT.IsColumn` — the quantile of a column, and the column of a
  quantile.

## Main results

* `StudentT.exists_isColumn` — every quantile has a column.
* `StudentT.entry_le_entry` — the table falls from row to row and grows from column to column.
* `StudentT.critical_eq_lookup` — **a critical value is the entry of its row and column**, and is
  monotone in both.
-/

namespace Microbench.StudentT

open Binary

/-- The quantile that a column stands for. -/
def quantileAt (c : Fin 6) : Float := thousandths (quantiles.get c)

/-- The column of a quantile has the greatest of the tabulated quantiles that are not above it;
where all of them are above it, the column is the first one. -/
inductive IsColumn (q : Float) (c : Fin 6) : Prop
  | within (hle : quantileAt c ≤ q)
      (hgreatest : ∀ c', quantileAt c' ≤ q → quantileAt c' ≤ quantileAt c)
  | below (hbelow : ∀ c', q < quantileAt c') (hfirst : c = 0)

/-! ### Columns -/

theorem isNaN_quantileAt : ∀ c, (quantileAt c).isNaN = false := by
  decide +kernel

theorem place_quantileAt_lt : ∀ c c', c < c' → place (quantileAt c) < place (quantileAt c') := by
  decide +kernel

theorem quantileAt_le_iff {c c' : Fin 6} : quantileAt c ≤ quantileAt c' ↔ c ≤ c' := by
  rw [le_iff_place (isNaN_quantileAt c) (isNaN_quantileAt c')]
  have hmono : StrictMono fun c => place (quantileAt c) := by
    intro c c'
    exact place_quantileAt_lt c c'
  exact hmono.le_iff_le

section
variable {q : Float}

theorem isBetween_iff {low high : ℕ} :
    (!Scalar.less q (thousandths low) && Scalar.less q (thousandths high)) = true ↔
      ¬ q < thousandths low ∧ q < thousandths high := by
  rw [Bool.and_eq_true, Bool.not_eq_true']
  exact and_congr decide_eq_false_iff_not decide_eq_true_iff

/-- The search stops where the quantile is between those of two neighbours. -/
theorem columnFrom_eq_some {start k : ℕ} {columns : List ℕ}
    (h : columnFrom q start columns = some k) :
    ∃ j low high, k = start + j ∧ columns[j]? = some low ∧ columns[j + 1]? = some high ∧
      ¬ q < thousandths low ∧ q < thousandths high := by
  fun_induction columnFrom q start columns with
  | case1 start low high rest hbetween =>
    obtain rfl : start = k := Option.some.inj h
    exact ⟨0, low, high, rfl, rfl, rfl, isBetween_iff.1 hbetween⟩
  | case2 start low high rest hnot ih =>
    obtain ⟨j, low', high', rfl, hbetween⟩ := ih h
    exact ⟨j + 1, low', high', by omega, hbetween⟩
  | case3 => cases h

/-- Where the search stops nowhere, a quantile that is not below the first is below none. -/
theorem columnFrom_eq_none {start : ℕ} {columns : List ℕ}
    (h : columnFrom q start columns = none)
    (hfirst : ∀ n, columns[0]? = some n → ¬ q < thousandths n) (n : ℕ) (hn : n ∈ columns) :
    ¬ q < thousandths n := by
  fun_induction columnFrom q start columns with
  | case1 => cases h
  | case2 start low high rest hnot ih =>
    have hlow := hfirst low rfl
    have hhigh : ¬ q < thousandths high := by
      intro hlt
      exact hnot (isBetween_iff.2 ⟨hlow, hlt⟩)
    rcases List.mem_cons.1 hn with rfl | hn
    · exact hlow
    · apply ih h
      · intro n' hn'
        obtain rfl : high = n' := Option.some.inj hn'
        exact hhigh
      · exact hn
  | case3 columns start hshort =>
    match columns with
    | [] => cases hn
    | [first] =>
      obtain rfl := List.mem_singleton.1 hn
      exact hfirst n rfl
    | low :: high :: rest => exact (hshort low high rest rfl).elim

theorem quantileAt_eq {j n : ℕ} (h : quantiles[j]? = some n) :
    ∃ hj : j < 6, quantileAt ⟨j, hj⟩ = thousandths n := by
  obtain ⟨hj, hn⟩ := List.getElem?_eq_some_iff.1 h
  exact ⟨hj, congrArg thousandths hn⟩

theorem exists_isColumn (hq : q.isNaN = false) : ∃ c : Fin 6, column q = c ∧ IsColumn q c := by
  have hle {c} (h : ¬ q < quantileAt c) : quantileAt c ≤ q :=
    (not_lt_iff_le hq (isNaN_quantileAt c)).1 h
  have hlt {c} (h : ¬ quantileAt c ≤ q) : q < quantileAt c := not_imp_comm.1 hle h
  unfold column
  cases hfound : columnFrom q 0 quantiles with
  | some k =>
    obtain ⟨j, low, high, rfl, hlow, hhigh, hnot, habove⟩ := columnFrom_eq_some hfound
    obtain ⟨hj, hthis⟩ := quantileAt_eq hlow
    obtain ⟨hnext, hthat⟩ := quantileAt_eq hhigh
    rw [← hthis] at hnot
    rw [← hthat] at habove
    refine ⟨⟨j, hj⟩, Nat.zero_add j, .within (hle hnot) ?_⟩
    intro c' hc'
    rw [quantileAt_le_iff]
    by_contra hmore
    have hbeyond : (⟨j + 1, hnext⟩ : Fin 6) ≤ c' := Nat.succ_le_of_lt (not_le.1 hmore)
    have hreach := le_trans (quantileAt_le_iff.2 hbeyond) hc'
    exact (not_lt_iff_le hq (isNaN_quantileAt _)).2 hreach habove
  | none =>
    show ∃ c : Fin 6, (if Scalar.less q (thousandths 900) then 0 else 5) = _ ∧ _
    by_cases hbelow : q < quantileAt 0
    · refine ⟨0, if_pos (decide_eq_true hbelow), .below ?_ rfl⟩
      intro c'
      apply hlt
      intro hc'
      have hreach := le_trans (quantileAt_le_iff.2 (Fin.zero_le c')) hc'
      exact (not_lt_iff_le hq (isNaN_quantileAt 0)).2 hreach hbelow
    · have hlast : ¬ q < quantileAt 5 := by
        refine columnFrom_eq_none hfound ?_ 999 (by decide)
        intro n hn
        obtain rfl : 900 = n := Option.some.inj hn
        exact hbelow
      refine ⟨5, if_neg ?_, .within (hle hlast) ?_⟩
      · exact ne_true_of_eq_false (decide_eq_false hbelow)
      · intro c' _
        exact quantileAt_le_iff.2 (Fin.le_last c')

/-- The greater a quantile is, the further its column is. -/
theorem IsColumn.le_of_le {q' : Float} {c c' : Fin 6} (h : IsColumn q c) (h' : IsColumn q' c')
    (hle : q ≤ q') : c ≤ c' := by
  cases h with
  | below _ hfirst =>
    rw [hfirst]
    exact Fin.zero_le c'
  | within hc _ =>
    have hreach := le_trans hc hle
    cases h' with
    | within _ hgreatest => exact quantileAt_le_iff.1 (hgreatest c hreach)
    | below hbelow _ =>
      have hq' := (isNaN_of_le hle).2
      exact absurd (hbelow c) ((not_lt_iff_le hq' (isNaN_quantileAt c)).2 hreach)

end

/-! ### The table -/

theorem size_row : ∀ row ∈ table, row.size = 6 := by
  decide +kernel

theorem rows_fall :
    table.toList.IsChain fun row next => ∀ c : Fin 6, next.getD c 0 ≤ row.getD c 0 := by
  decide +kernel

theorem row_grows : ∀ row ∈ table, ∀ c : Fin 5, row.getD c 0 ≤ row.getD (c + 1) 0 := by
  decide +kernel

theorem entry_eq_getD {r : ℕ} (hr : r < table.size) (c : ℕ) : entry r c = table[r].getD c 0 := by
  have hrow : table[r] = table.getD r #[] := Array.getElem_eq_getD _
  rw [hrow]
  rfl

theorem entry_succ_le {r c : ℕ} (hr : r + 1 < table.size) (hc : c < 6) :
    entry (r + 1) c ≤ entry r c := by
  have hfall := List.isChain_iff_getElem.1 rows_fall r hr ⟨c, hc⟩
  rwa [entry_eq_getD hr, entry_eq_getD (Nat.lt_of_succ_lt hr)]

theorem entry_le_succ {r c : ℕ} (hr : r < table.size) (hc : c < 5) :
    entry r c ≤ entry r (c + 1) := by
  rw [entry_eq_getD hr, entry_eq_getD hr]
  exact row_grows table[r] (Array.getElem_mem hr) ⟨c, hc⟩

/-- The table falls from row to row and grows from column to column. -/
theorem entry_le_entry {r r' c c' : ℕ} (hr : r' ≤ r) (hbottom : r < table.size) (hc : c ≤ c')
    (hlast : c' < 6) : entry r c ≤ entry r' c' := by
  have hrows : entry r c ≤ entry r' c := by
    induction r, hr using Nat.le_induction with
    | base => exact Nat.le_refl _
    | succ r hr ih =>
      exact (entry_succ_le hbottom (by omega)).trans (ih (by omega))
  have hcolumns : entry r' c ≤ entry r' c' := by
    induction c', hc using Nat.le_induction with
    | base => exact Nat.le_refl _
    | succ c' hc ih =>
      exact (ih (by omega)).trans (entry_le_succ (Nat.lt_of_le_of_lt hr hbottom) (by omega))
  exact hrows.trans hcolumns

theorem row_lt (freedom : ℕ) : row freedom < table.size := by
  show min freedom 101 - 1 < 101
  omega

theorem row_mono {freedom freedom' : ℕ} (h : freedom ≤ freedom') : row freedom ≤ row freedom' := by
  show min freedom 101 - 1 ≤ min freedom' 101 - 1
  omega

/-! ### Critical values -/

theorem thousandths_le_thousandths {m n : ℕ} (hm : 0 < m) (hn : n < 2 ^ 53) (h : m ≤ n) :
    (thousandths m : Float) ≤ thousandths n :=
  ofNat_div_le_ofNat_div hm hn (by decide) (by decide) h

theorem thousandths_entry_le {r r' c c' : ℕ} (hr : r' ≤ r) (hbottom : r < table.size) (hc : c ≤ c')
    (hlast : c' < 6) : (thousandths (entry r c) : Float) ≤ thousandths (entry r' c') := by
  have hleast : entry 100 0 ≤ entry r c :=
    entry_le_entry (Nat.le_of_lt_succ hbottom) (by decide) (Nat.zero_le c) (by omega)
  have hgreatest : entry r' c' ≤ entry 0 5 :=
    entry_le_entry (Nat.zero_le r') (by omega) (by omega) (by decide)
  refine thousandths_le_thousandths ?_ ?_ (entry_le_entry hr hbottom hc hlast)
  · exact Nat.lt_of_lt_of_le (by decide) hleast
  · exact Nat.lt_of_le_of_lt hgreatest (by decide)

theorem critical_eq {q : Float} {freedom : ℕ} (hfreedom : 1 ≤ freedom) :
    critical q freedom = thousandths (entry (row freedom) (column q)) :=
  if_neg (Nat.ne_of_gt hfreedom)

theorem row_add_one {freedom : ℕ} (hfreedom : 1 ≤ freedom) : row freedom + 1 = min freedom 101 := by
  show min freedom 101 - 1 + 1 = min freedom 101
  omega

/-- **Critical values are looked up, and never where there is nothing**: there is one row for each
count of degrees of freedom up to a hundred and a last one for all others, and one column for each
quantile.  So the value is monotone in the quantile and antitone in the degrees of freedom. -/
theorem critical_eq_lookup (q : Float) (freedom : ℕ) (hq : q.isNaN = false)
    (hfreedom : 1 ≤ freedom) :
    (∃ (c : Fin 6) (hrow : row freedom < table.size) (hcolumn : column q < table[row freedom].size),
      row freedom + 1 = min freedom 101 ∧ column q = c ∧ IsColumn q c ∧
        critical q freedom = thousandths table[row freedom][column q]) ∧
    (∀ q', q ≤ q' → critical q freedom ≤ critical q' freedom) ∧
    ∀ freedom', freedom ≤ freedom' → critical q freedom' ≤ critical q freedom := by
  obtain ⟨c, hfound, hc⟩ := exists_isColumn hq
  refine ⟨?_, ?_, ?_⟩
  · have hrow := row_lt freedom
    have hcolumn : column q < table[row freedom].size := by
      rw [size_row _ (Array.getElem_mem hrow), hfound]
      exact c.isLt
    refine ⟨c, hrow, hcolumn, row_add_one hfreedom, hfound, hc, ?_⟩
    rw [critical_eq hfreedom, entry_eq_getD hrow, ← Array.getElem_eq_getD]
  · intro q' hle
    obtain ⟨c', hfound', hc'⟩ := exists_isColumn (isNaN_of_le hle).2
    rw [critical_eq hfreedom, critical_eq hfreedom, hfound, hfound']
    exact thousandths_entry_le (Nat.le_refl _) (row_lt _) (hc.le_of_le hc' hle) c'.isLt
  · intro freedom' hle
    rw [critical_eq hfreedom, critical_eq (hfreedom.trans hle), hfound]
    exact thousandths_entry_le (row_mono hle) (row_lt _) (Nat.le_refl _) c.isLt

/-- A quantile between two columns has the lower one. -/
theorem critical_eq_lookup_between : critical (0.9875 : Float) 10 = thousandths 2228 ∧
    critical (0.9875 : Float) 10 ≤ critical 0.9995 10 ∧
    critical (0.9875 : Float) 10000 ≤ critical 0.9875 10 := by
  obtain ⟨⟨c, hrow, hcolumn, -, hfound, hc, hvalue⟩, hup, hdown⟩ :=
    critical_eq_lookup 0.9875 10 rfl (by decide)
  have hlow : quantileAt 2 ≤ 0.9875 := by decide +kernel
  have hhigh : ¬ quantileAt 3 ≤ 0.9875 := by decide +kernel
  obtain rfl : c = 2 := by
    cases hc with
    | below hbelow _ => exact absurd (hbelow 2) (by decide +kernel)
    | within hle hgreatest =>
      have hleast := quantileAt_le_iff.1 (hgreatest 2 hlow)
      have hmost : ¬ 3 ≤ c := fun h => hhigh (le_trans (quantileAt_le_iff.2 h) hle)
      omega
  have hentry : table[row 10][column (0.9875 : Float)] = 2228 := by
    simp only [hfound]
    rfl
  rw [hentry] at hvalue
  exact ⟨hvalue, hup 0.9995 (by decide +kernel), hdown 10000 (by decide)⟩

end Microbench.StudentT
