/-!
# Dictionaries in key order

A dictionary keyed by text that lists its entries in ascending order of their
keys, each key once.  The entries are a plain list and the order is part of the
type, so two dictionaries with the same entries are equal.

## Main definitions

* `Dict` — the entries with the proof that their keys ascend.
* `Dict.get?`, `Dict.insert`, `Dict.alter` — look up, write and change one entry.
* `Dict.ofList` — from entries in any order; of two with one key the later wins.
-/

namespace Microbench

/-- A dictionary keyed by text, listed in ascending key order. -/
structure Dict (α : Type) where
  /-- The entries. -/
  toList : List (String × α)
  /-- Keys ascend strictly, so no key occurs twice. -/
  ascending : toList.Pairwise fun a b => a.1 < b.1

namespace Dict

variable {α β : Type}

/-- A dictionary is its list of entries. -/
theorem ext_toList {a b : Dict α} (h : a.toList = b.toList) : a = b := by
  cases a; cases b; cases h; rfl

instance [DecidableEq α] : DecidableEq (Dict α) := fun a b =>
  if h : a.toList = b.toList then isTrue (ext_toList h)
  else isFalse fun e => h (e ▸ rfl)

/-- The dictionary without entries. -/
def empty : Dict α := ⟨[], .nil⟩

instance : EmptyCollection (Dict α) := ⟨empty⟩
instance : Inhabited (Dict α) := ⟨empty⟩

/-- Number of entries. -/
def size (d : Dict α) : Nat := d.toList.length

/-- Whether there is no entry. -/
def isEmpty (d : Dict α) : Bool := d.toList.isEmpty

/-- The keys, ascending. -/
def keys (d : Dict α) : List String := d.toList.map Prod.fst

/-- The values in the order of their keys. -/
def values (d : Dict α) : List α := d.toList.map Prod.snd

/-- The value of the first entry with this key. -/
def find (k : String) : List (String × α) → Option α
  | [] => none
  | (k', v) :: rest => if k = k' then some v else find k rest

/-- The value of a key. -/
def get? (d : Dict α) (k : String) : Option α := find k d.toList

/-- Whether the key has an entry. -/
def contains (d : Dict α) (k : String) : Bool := (d.get? k).isSome

/-- Change the value at one key of an ascending list: `f` gets the value there, if any. -/
def alterList (k : String) (f : Option α → α) : List (String × α) → List (String × α)
  | [] => [(k, f none)]
  | (k', v) :: rest =>
    if k < k' then (k, f none) :: (k', v) :: rest
    else if k = k' then (k, f (some v)) :: rest
    else (k', v) :: alterList k f rest

/-- Altering brings in no key but the altered one. -/
theorem mem_alterList_key {k : String} {f : Option α → α} {l : List (String × α)}
    {e : String × α} (h : e ∈ alterList k f l) : e.1 = k ∨ ∃ e' ∈ l, e'.1 = e.1 := by
  induction l with
  | nil => simp [alterList] at h; simp [h]
  | cons a rest ih =>
    obtain ⟨k', v⟩ := a
    unfold alterList at h
    split at h
    · rcases List.mem_cons.1 h with rfl | h
      · exact .inl rfl
      · exact .inr ⟨e, h, rfl⟩
    · split at h
      · rcases List.mem_cons.1 h with rfl | h
        · exact .inl rfl
        · exact .inr ⟨e, List.mem_cons_of_mem _ h, rfl⟩
      · rcases List.mem_cons.1 h with rfl | h
        · exact .inr ⟨_, List.mem_cons_self, rfl⟩
        · rcases ih h with h | ⟨e', he', hk⟩
          · exact .inl h
          · exact .inr ⟨e', List.mem_cons_of_mem _ he', hk⟩

/-- A key that is neither below nor equal to another is above it. -/
theorem lt_of_not_lt_of_ne {a b : String} (h : ¬ a < b) (hne : ¬ a = b) : b < a := by
  rcases Decidable.em (b < a) with h' | h'
  · exact h'
  · exact absurd (String.le_antisymm (String.not_lt.1 h') (String.not_lt.1 h)) hne

/-- Altering keeps the keys ascending. -/
theorem pairwise_alterList {k : String} {f : Option α → α} {l : List (String × α)}
    (h : l.Pairwise fun a b => a.1 < b.1) :
    (alterList k f l).Pairwise fun a b => a.1 < b.1 := by
  induction l with
  | nil => simp [alterList]
  | cons a rest ih =>
    obtain ⟨k', v⟩ := a
    have hrest := List.pairwise_cons.1 h
    unfold alterList
    split
    · next hlt =>
      refine List.pairwise_cons.2 ⟨?_, h⟩
      intro e he
      rcases List.mem_cons.1 he with rfl | he
      · exact hlt
      · exact String.lt_trans hlt (hrest.1 e he)
    · next hlt =>
      split
      · next heq =>
        subst heq
        exact List.pairwise_cons.2 ⟨hrest.1, hrest.2⟩
      · next hne =>
        refine List.pairwise_cons.2 ⟨?_, ih hrest.2⟩
        intro e he
        rcases mem_alterList_key he with hk | ⟨e', he', hk⟩
        · rw [hk]; exact lt_of_not_lt_of_ne hlt hne
        · rw [← hk]; exact hrest.1 e' he'

/-- Change the value at one key, or add the key: `f` gets the value there, if any. -/
def alter (d : Dict α) (k : String) (f : Option α → α) : Dict α :=
  ⟨alterList k f d.toList, pairwise_alterList d.ascending⟩

/-- Write one entry, in place of the one with this key if there is one. -/
def insert (d : Dict α) (k : String) (v : α) : Dict α := d.alter k fun _ => v

/-- The dictionary of these entries; of two with one key the later wins. -/
def ofList (entries : List (String × α)) : Dict α :=
  entries.foldl (fun d e => d.insert e.1 e.2) empty

/-- The same keys with changed values. -/
def map (f : String → α → β) (d : Dict α) : Dict β :=
  ⟨d.toList.map fun e => (e.1, f e.1 e.2), by
    simpa [List.pairwise_map] using d.ascending⟩

/-- After altering a key it has the altered value, and every other key has what it had. -/
theorem find_alterList (k k' : String) (f : Option α → α) (l : List (String × α))
    (h : l.Pairwise fun a b => a.1 < b.1) :
    find k' (alterList k f l) = if k' = k then some (f (find k l)) else find k' l := by
  induction l with
  | nil => simp [alterList, find]
  | cons a rest ih =>
    obtain ⟨a, v⟩ := a
    have hrest := List.pairwise_cons.1 h
    have hlow : ∀ {x : String}, x < a ∨ x = a → find x rest = none := by
      intro x hx
      have : ∀ l : List (String × α), (∀ e ∈ l, x < e.1) → find x l = none := by
        intro l hl
        induction l with
        | nil => rfl
        | cons b l ihl =>
          have hb := hl b List.mem_cons_self
          have hne : ¬ x = b.1 := fun e => String.lt_irrefl _ (e ▸ hb)
          simp [find, hne, ihl fun e he => hl e (List.mem_cons_of_mem _ he)]
      refine this rest fun e he => ?_
      rcases hx with hx | rfl
      · exact String.lt_trans hx (hrest.1 e he)
      · exact hrest.1 e he
    unfold alterList
    split
    · next hlt =>
      have hka : ¬ k = a := fun e => String.lt_irrefl a (e ▸ hlt)
      simp only [find, hka, ↓reduceIte, hlow (.inl hlt)]
    · next hlt =>
      split
      · next heq =>
        subst heq
        simp only [find, ↓reduceIte]
        split <;> rfl
      · next hne =>
        simp only [find, ih hrest.2, hne, ↓reduceIte]
        by_cases hk : k' = a
        · subst hk
          simp [Ne.symm hne]
        · simp [hk]

/-- Writing one entry changes the look-up of its key and of no other. -/
theorem get?_insert (d : Dict α) (k k' : String) (v : α) :
    (d.insert k v).get? k' = if k' = k then some v else d.get? k' :=
  find_alterList k k' (fun _ => v) d.toList d.ascending

@[simp] theorem get?_empty (k : String) : (empty : Dict α).get? k = none := rfl

end Dict

end Microbench
