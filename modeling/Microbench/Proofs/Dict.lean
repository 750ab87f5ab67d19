import Microbench.Dict
import Mathlib.Data.List.Sort

/-!
# Dictionaries from their entries

## Main definitions

* `restrict` — the entries whose values are picked.

## Main results

* `ofList_toList` — a dictionary is made again from its entries.
* `mem_of_mem_ofList` — it has no entries but those it is made of.
* `ext_get?` — a dictionary is known from what is found in it.
* `get?_ofList_filterMap` — looking up what has been made of the entries one by one.
* `get?_foldl_step`, `get?_foldl_insert` — looking up what has been entered step by step.
* `filter_values` — the value of a key among all values.
* `filter_values_congr` — the values that are picked are known from what is found.
-/

namespace Microbench.Dict

variable {α : Type}

/-- A key above all others is added at the end. -/
theorem alterList_of_forall_lt {k : String} {f : Option α → α} {l : List (String × α)}
    (h : ∀ e ∈ l, e.1 < k) : alterList k f l = l ++ [(k, f none)] := by
  induction l with
  | nil => rfl
  | cons e l ih =>
    obtain ⟨he, hl⟩ := List.forall_mem_cons.1 h
    have hnot : ¬ k < e.1 := fun hlt => String.lt_irrefl _ (String.lt_trans he hlt)
    have hne : ¬ k = e.1 := fun heq => String.lt_irrefl _ (heq ▸ he)
    rw [alterList, if_neg hnot, if_neg hne, ih hl, List.cons_append]

/-- Entries with ascending keys are written one after the other behind those that are there. -/
theorem toList_foldl_insert (l : List (String × α)) (d : Dict α)
    (h : (d.toList ++ l).Pairwise fun a b => a.1 < b.1) :
    (l.foldl (fun d e => d.insert e.1 e.2) d).toList = d.toList ++ l := by
  induction l generalizing d with
  | nil => simp
  | cons e l ih =>
    have hlt : ∀ x ∈ d.toList, x.1 < e.1 := fun x hx =>
      (List.pairwise_append.1 h).2.2 x hx e List.mem_cons_self
    have hinsert : (d.insert e.1 e.2).toList = d.toList ++ [e] :=
      alterList_of_forall_lt hlt
    rw [List.foldl_cons, ih (d.insert e.1 e.2) (by simpa [hinsert] using h), hinsert,
      List.append_assoc]
    rfl

/-- Ascending entries are those of their dictionary. -/
theorem toList_ofList {l : List (String × α)} (h : l.Pairwise fun a b => a.1 < b.1) :
    (ofList l).toList = l :=
  toList_foldl_insert l empty h

/-- **A dictionary is made again from its entries.** -/
theorem ofList_toList (d : Dict α) : ofList d.toList = d := ext_toList (toList_ofList d.ascending)

/-! ### Looking up -/

theorem find_eq_none {k : String} {l : List (String × α)} (h : ∀ e ∈ l, ¬ k = e.1) :
    find k l = none := by
  induction l with
  | nil => rfl
  | cons e l ih =>
    obtain ⟨he, hl⟩ := List.forall_mem_cons.1 h
    rw [find, if_neg he, ih hl]

/-- The first key of ascending entries does not come back. -/
theorem find_tail {e : String × α} {l : List (String × α)}
    (h : (e :: l).Pairwise fun a b => a.1 < b.1) : find e.1 l = none := by
  refine find_eq_none fun e' hmem heq => ?_
  have hlt : e.1 < e'.1 := List.rel_of_pairwise_cons h hmem
  exact String.lt_irrefl _ (heq ▸ hlt)

/-- An entry is found by its key. -/
theorem get?_of_mem {d : Dict α} {e : String × α} (h : e ∈ d.toList) :
    d.get? e.1 = some e.2 := by
  obtain ⟨l, hascending⟩ := d
  dsimp only [get?] at h ⊢
  induction l with
  | nil => cases h
  | cons first l ih =>
    rcases List.mem_cons.1 h with rfl | hmem
    · rw [find, if_pos rfl]
    · have hlt : first.1 < e.1 := List.rel_of_pairwise_cons hascending hmem
      have hne : ¬ e.1 = first.1 := fun heq => String.lt_irrefl _ (heq ▸ hlt)
      rw [find, if_neg hne]
      exact ih (List.Pairwise.of_cons hascending) hmem

/-- What is found under a key is an entry. -/
theorem mem_of_find {k : String} {v : α} {l : List (String × α)} (h : find k l = some v) :
    (k, v) ∈ l := by
  induction l with
  | nil => cases h
  | cons e l ih =>
    rw [find] at h
    split at h
    · next heq =>
      subst heq
      cases h
      exact List.mem_cons_self
    · exact List.mem_cons_of_mem _ (ih h)

theorem mem_toList_iff {d : Dict α} {e : String × α} : e ∈ d.toList ↔ d.get? e.1 = some e.2 :=
  ⟨get?_of_mem, mem_of_find⟩

/-- **A dictionary is known from what is found in it.** -/
theorem ext_get? {d e : Dict α} (h : ∀ k, d.get? k = e.get? k) : d = e := by
  have hirrefl : Std.Irrefl fun a b : String × α => a.1 < b.1 := ⟨fun _ => String.lt_irrefl _⟩
  have hantisymm : Std.Antisymm fun a b : String × α => a.1 < b.1 :=
    ⟨fun _ _ hab hba => absurd (String.lt_trans hab hba) (String.lt_irrefl _)⟩
  refine ext_toList (d.ascending.eq_of_mem_iff e.ascending fun x => ?_)
  rw [mem_toList_iff, mem_toList_iff, h]

/-- After altering a key it has the altered value, and every other key has what it had. -/
theorem get?_alter (d : Dict α) (k k' : String) (f : Option α → α) :
    (d.alter k f).get? k' = if k' = k then some (f (d.get? k)) else d.get? k' :=
  find_alterList k k' f d.toList d.ascending

theorem find_filterMap {β : Type} {f : α → Option β} (k : String) {l : List (String × α)}
    (h : l.Pairwise fun a b => a.1 < b.1) :
    find k (l.filterMap fun e => (f e.2).map fun b => (e.1, b)) = (find k l).bind f := by
  induction l with
  | nil => rfl
  | cons e l ih =>
    have hrest := ih (List.Pairwise.of_cons h)
    rw [List.filterMap_cons, find]
    cases hf : f e.2 with
    | none =>
      rw [Option.map_none, hrest]
      by_cases hk : k = e.1
      · rw [if_pos hk, hk, find_tail h, Option.bind_some, hf]
        rfl
      · rw [if_neg hk]
    | some b =>
      rw [Option.map_some, find]
      by_cases hk : k = e.1
      · rw [if_pos hk, if_pos hk, Option.bind_some, hf]
      · rw [if_neg hk, if_neg hk, hrest]

/-- Looking up what has been made of the entries one by one. -/
theorem get?_ofList_filterMap {β : Type} (d : Dict α) (f : α → Option β) (k : String) :
    (ofList (d.toList.filterMap fun e => (f e.2).map fun b => (e.1, b))).get? k =
      (d.get? k).bind f := by
  have hascending : (d.toList.filterMap fun e => (f e.2).map fun b => (e.1, b)).Pairwise
      fun a b => a.1 < b.1 := by
    refine List.Pairwise.filterMap _ (fun e e' hlt x hx x' hx' => ?_) d.ascending
    obtain ⟨b, -, rfl⟩ := Option.map_eq_some_iff.1 hx
    obtain ⟨b', -, rfl⟩ := Option.map_eq_some_iff.1 hx'
    exact hlt
  rw [get?, toList_ofList hascending]
  exact find_filterMap k d.ascending

/-- Where each step gives its key a value or leaves everything as it is, a key has this value after
all steps if it has had its turn. -/
theorem get?_foldl_step (value : String → Option α) {step : Dict α → String → Dict α}
    (hsome : ∀ d label a, value label = some a → step d label = d.insert label a)
    (hnone : ∀ d label, value label = none → step d label = d) (label : String)
    (labels : List String) (d : Dict α) :
    (labels.foldl step d).get? label =
      if label ∈ labels then (value label).or (d.get? label) else d.get? label := by
  induction labels generalizing d with
  | nil => simp
  | cons first rest ih =>
    rw [List.foldl_cons, ih]
    by_cases hfirst : label = first
    · subst hfirst
      cases hvalue : value label with
      | none => simp [hnone d label hvalue]
      | some a => simp [hsome d label a hvalue, get?_insert]
    · have hsame : (step d first).get? label = d.get? label := by
        cases hvalue : value first with
        | none => rw [hnone d first hvalue]
        | some a => rw [hsome d first a hvalue, get?_insert, if_neg hfirst]
      rw [hsame]
      simp [hfirst]

/-- Entries that are written stand in place of what was there. -/
theorem get?_foldl_insert (l : List (String × α)) (d : Dict α) (k : String) :
    (l.foldl (fun d e => d.insert e.1 e.2) d).get? k = ((ofList l).get? k).or (d.get? k) := by
  induction l generalizing d with
  | nil => rfl
  | cons e l ih =>
    rw [ofList, List.foldl_cons, List.foldl_cons, ih, ih (insert ..), Option.or_assoc, get?_insert,
      get?_insert]
    by_cases hk : k = e.1
    · rw [if_pos hk, if_pos hk, Option.some_or]
    · rw [if_neg hk, if_neg hk, get?_empty, Option.none_or]

/-- What is found after entries have been written is one of them or has been there before. -/
theorem mem_of_get?_foldl_insert {l : List (String × α)} {d : Dict α} {k : String} {v : α}
    (h : (l.foldl (fun d e => d.insert e.1 e.2) d).get? k = some v) :
    (k, v) ∈ l ∨ d.get? k = some v := by
  induction l generalizing d with
  | nil => exact .inr h
  | cons e l ih =>
    rcases ih h with hmem | hget
    · exact .inl (List.mem_cons_of_mem _ hmem)
    · rw [get?_insert] at hget
      split at hget
      · next heq =>
        subst heq
        cases hget
        exact .inl List.mem_cons_self
      · exact .inr hget

/-- A dictionary has no other entries than those it is made of. -/
theorem mem_of_mem_ofList {l : List (String × α)} {e : String × α}
    (h : e ∈ (ofList l).toList) : e ∈ l := by
  rcases mem_of_get?_foldl_insert (get?_of_mem h) with hmem | hget
  · exact hmem
  · cases hget

/-- Where values carry their keys, the value of a key is the one that carries it. -/
theorem filter_values (d : Dict α) {key : α → String} (h : ∀ e ∈ d.toList, key e.2 = e.1)
    (k : String) : d.values.filter (key · = k) = (d.get? k).toList := by
  obtain ⟨l, hascending⟩ := d
  dsimp only [values, get?] at h ⊢
  induction l with
  | nil => rfl
  | cons e l ih =>
    obtain ⟨he, hl⟩ := List.forall_mem_cons.1 h
    have hrest := ih (List.Pairwise.of_cons hascending) hl
    rw [List.map_cons, find]
    by_cases hk : k = e.1
    · have hnone : find k l = none := hk ▸ find_tail hascending
      rw [List.filter_cons_of_pos (by rw [he, hk]; exact decide_eq_true rfl), if_pos hk, hrest,
        hnone]
      rfl
    · rw [List.filter_cons_of_neg (by rw [he]; simpa using Ne.symm hk), if_neg hk, hrest]

theorem get?_map {β : Type} (d : Dict α) (f : String → α → β) (k : String) :
    (d.map f).get? k = (d.get? k).map (f k) := by
  obtain ⟨l, hascending⟩ := d
  dsimp only [get?, map]
  clear hascending
  induction l with
  | nil => rfl
  | cons e l ih =>
    rw [List.map_cons, find, find]
    by_cases hk : k = e.1
    · rw [if_pos hk, if_pos hk, hk]
      rfl
    · rw [if_neg hk, if_neg hk, ih]

/-! ### Picking values -/

/-- The entries whose values are picked. -/
def restrict (p : α → Bool) (d : Dict α) : Dict α :=
  ⟨d.toList.filter fun e => p e.2, d.ascending.filter _⟩

theorem values_restrict (p : α → Bool) (d : Dict α) :
    (d.restrict p).values = d.values.filter p :=
  (List.filter_map ..).symm

theorem get?_restrict (p : α → Bool) (d : Dict α) (k : String) :
    (d.restrict p).get? k = (d.get? k).filter p := by
  obtain ⟨l, hascending⟩ := d
  dsimp only [get?, restrict]
  induction l with
  | nil => rfl
  | cons e l ih =>
    have hrest := ih (List.Pairwise.of_cons hascending)
    rw [find, List.filter_cons]
    by_cases hk : k = e.1
    · rw [if_pos hk, Option.filter_some]
      split
      · rw [find, if_pos hk]
      · -- the key does not come back among the entries that are left
        rw [hrest, hk, find_tail hascending]
        rfl
    · rw [if_neg hk, ← hrest]
      split
      · rw [find, if_neg hk]
      · rfl

/-- The values that are picked are known from what is found. -/
theorem filter_values_congr {d e : Dict α} {p : α → Bool}
    (h : ∀ k, (d.get? k).filter p = (e.get? k).filter p) :
    d.values.filter p = e.values.filter p := by
  rw [← values_restrict, ← values_restrict]
  refine congrArg values (ext_get? fun k => ?_)
  rw [get?_restrict, get?_restrict, h]

end Microbench.Dict
