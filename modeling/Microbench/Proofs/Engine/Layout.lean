import Microbench.Proofs.Engine.Brackets
import Microbench.Proofs.Trial.Resolution

/-!
# The layout of a trial and how it ramps up

The places of the threads are worked out three times: as a list of seats, as the number of
active threads in each group, and as the total for each iteration.  The three always agree,
and every seat finds its group in each of them.  What is settled for a trial leaves no
iteration without a thread and none without something to measure.

## Main definitions

* `Seat.IsLayout` — every thread of every group has one seat, and knows where it is.
* `Settings.activeOf` — how many threads of a group take part in an iteration.
* `Settings.activeSeats` — the seats that do.
* `Settings.Agrees` — what is said about an iteration agrees with the seats that take part in it.

## Main results

* `Seat.mem_layout_iff` — what seats there are.
* `Seat.isLayout_layout` — **the layout is one.**
* `Settings.toNat_activeOf` — one more in every iteration with scaling, until there are no more.
* `Settings.isActive_iff` — which of the seats take part in an iteration.
* `Settings.layout_agrees` — **layout and ramp agree** in every trial that can be run.
* `Conductor.length_activeSeats` — **how many threads take part in an iteration.**
* `Conductor.activeSeats_ne_nil` — there is at least one.
-/

namespace Microbench

namespace Seat

/-- One seat comes before another: in an earlier group, or earlier in the same. -/
def Precedes (a b : Seat) : Prop :=
  a.groupIndex < b.groupIndex ∨ a.groupIndex = b.groupIndex ∧ a.indexInGroup < b.indexInGroup

/-- Seats for all threads of some groups. -/
structure IsLayout (groups : List Group) (seats : List Seat) : Prop where
  /-- There is a seat for every thread of every group, and no other. -/
  complete : ∀ g k, (∃ seat ∈ seats, seat.groupIndex = g ∧ seat.indexInGroup = k) ↔
    ∃ group, groups[g]? = some group ∧ k < group.threads.toNat
  /-- They come group by group. -/
  ordered : seats.Pairwise Precedes
  /-- No two are for one thread. -/
  once : (seats.map fun seat => (seat.groupIndex, seat.indexInGroup)).Nodup
  /-- A seat knows its place among all. -/
  index_eq : ∀ (i : ℕ) (seat : Seat), seats[i]? = some seat → seat.index = i
  /-- It knows how many there are. -/
  total_eq : ∀ seat ∈ seats, seat.total = seats.length
  /-- It knows its group. -/
  group_eq : ∀ seat ∈ seats,
    groups[seat.groupIndex]? = some ⟨seat.groupName, seat.groupThreads⟩
  /-- It finds the place of its group among those of all groups, and so whatever there is one of for
  each of them. -/
  groupSeat_eq : ∀ seat ∈ seats, (GroupSeat.layout groups)[seat.groupIndex]? =
    some ⟨seat.groupIndex, seat.groupName, seat.groupThreads⟩

variable {groups : List Group} {seat : Seat}

theorem mem_layoutFrom_iff {total index groupIndex : ℕ} :
    seat ∈ layoutFrom total index groupIndex groups ↔
      ∃ g group k, groups[g]? = some group ∧ k < group.threads.toNat ∧
        seat = ⟨index + totalThreads (groups.take g) + k, total, groupIndex + g, group.name, k,
          group.threads⟩ := by
  induction groups generalizing index groupIndex with
  | nil => simp [layoutFrom]
  | cons first rest ih =>
    rw [layoutFrom, List.mem_append, List.mem_map, ih]
    constructor
    · rintro (⟨k, hk, rfl⟩ | ⟨g, group, k, hgroup, hk, rfl⟩)
      · exact ⟨0, first, k, rfl, List.mem_range.1 hk, rfl⟩
      · refine ⟨g + 1, group, k, hgroup, hk, ?_⟩
        rw [List.take_succ_cons, totalThreads_cons]
        congr 1 <;> omega
    · rintro ⟨g, group, k, hgroup, hk, rfl⟩
      cases g with
      | zero =>
        obtain rfl : first = group := Option.some.inj hgroup
        exact .inl ⟨k, List.mem_range.2 hk, rfl⟩
      | succ g =>
        refine .inr ⟨g, group, k, hgroup, hk, ?_⟩
        rw [List.take_succ_cons, totalThreads_cons]
        congr 1 <;> omega

/-- **What seats there are**: one for each thread of each group, after those of the groups
before it. -/
theorem mem_layout_iff :
    seat ∈ layout groups ↔ ∃ g group k, groups[g]? = some group ∧ k < group.threads.toNat ∧
      seat = ⟨totalThreads (groups.take g) + k, totalThreads groups, g, group.name, k,
        group.threads⟩ := by
  rw [layout, mem_layoutFrom_iff]
  simp only [Nat.zero_add]

theorem pairwise_layoutFrom (total index groupIndex : ℕ) (groups : List Group) :
    (layoutFrom total index groupIndex groups).Pairwise Precedes := by
  induction groups generalizing index groupIndex with
  | nil => exact List.Pairwise.nil
  | cons first rest ih =>
    rw [layoutFrom, List.pairwise_append]
    refine ⟨?_, ih _ _, ?_⟩
    · rw [List.pairwise_map]
      exact List.pairwise_lt_range.imp fun hlt => .inr ⟨rfl, hlt⟩
    · intro a ha b hb
      obtain ⟨k, -, rfl⟩ := List.mem_map.1 ha
      obtain ⟨g, group, k', -, -, rfl⟩ := mem_layoutFrom_iff.1 hb
      exact .inl (Nat.lt_of_lt_of_le (Nat.lt_succ_self _) (Nat.le_add_right _ _))

theorem length_layout (groups : List Group) : (layout groups).length = totalThreads groups := by
  rw [← List.length_map Seat.index, layout, index_layoutFrom, List.length_range']

/-- **The layout has a seat for every thread**, in the order of the groups, and what the seats say
about themselves is right. -/
theorem isLayout_layout (groups : List Group) : IsLayout groups (layout groups) where
  complete := by
    intro g k
    constructor
    · rintro ⟨seat, hseat, rfl, rfl⟩
      obtain ⟨g, group, k, hgroup, hk, rfl⟩ := mem_layout_iff.1 hseat
      exact ⟨group, hgroup, hk⟩
    · rintro ⟨group, hgroup, hk⟩
      exact ⟨_, mem_layout_iff.2 ⟨g, group, k, hgroup, hk, rfl⟩, rfl, rfl⟩
  ordered := pairwise_layoutFrom _ _ _ groups
  once := by
    refine List.pairwise_map.2 ((pairwise_layoutFrom _ _ _ groups).imp fun hbefore hsame => ?_)
    obtain ⟨hgroup, hindex⟩ := Prod.mk.inj hsame
    rcases hbefore with hlt | ⟨-, hlt⟩
    · exact Nat.ne_of_lt hlt hgroup
    · exact Nat.ne_of_lt hlt hindex
  index_eq := by
    intro i seat hseat
    have hindex : ((layout groups).map Seat.index)[i]? = some seat.index := by
      rw [List.getElem?_map, hseat]
      rfl
    rw [layout, index_layoutFrom] at hindex
    obtain ⟨hi, hvalue⟩ := List.getElem?_eq_some_iff.1 hindex
    rw [List.getElem_range'] at hvalue
    omega
  total_eq := by
    intro seat hseat
    obtain ⟨g, group, k, -, -, rfl⟩ := mem_layout_iff.1 hseat
    exact (length_layout groups).symm
  group_eq := by
    intro seat hseat
    obtain ⟨g, group, k, hgroup, -, rfl⟩ := mem_layout_iff.1 hseat
    exact hgroup
  groupSeat_eq := by
    intro seat hseat
    obtain ⟨g, group, k, hgroup, -, rfl⟩ := mem_layout_iff.1 hseat
    rw [GroupSeat.layout, List.getElem?_mapIdx, hgroup]
    rfl

/-! ### Active seats -/

theorem filter_range_lt {m n : Nat} (h : m ≤ n) :
    (List.range n).filter (fun k => k < m) = List.range m := by
  obtain ⟨k, rfl⟩ := Nat.exists_eq_add_of_le h
  rw [List.range_add, List.filter_append]
  have hfirst : (List.range m).filter (fun k => k < m) = List.range m :=
    List.filter_eq_self.2 fun j hj => decide_eq_true (List.mem_range.1 hj)
  have hrest : ((List.range k).map (m + ·)).filter (fun k => k < m) = [] := by
    refine List.filter_eq_nil_iff.2 fun j hj => ?_
    obtain ⟨i, -, rfl⟩ := List.mem_map.1 hj
    simp
  rw [hfirst, hrest, List.append_nil]

/-- The active seats of the groups from one on, where as many threads of each are active as said. -/
theorem length_filter_layoutFrom {active : Group → UInt32} (groups : List Group)
    (hle : ∀ g ∈ groups, (active g).toNat ≤ g.threads.toNat) (total : Nat) :
    ∀ (index : Nat) (former : List UInt32),
      ((layoutFrom total index former.length groups).filter
        (Settings.isActive (former ++ groups.map active))).length =
          Whole.total (groups.map fun g => (active g).toNat) := by
  induction groups with
  | nil => exact fun _ _ => rfl
  | cons g rest ih =>
    intro index former
    obtain ⟨hg, hrest⟩ := List.forall_mem_cons.1 hle
    have hown : ((List.range g.threads.toNat).map fun k =>
        (⟨index + k, total, former.length, g.name, k, g.threads⟩ : Seat)).filter
          (Settings.isActive (former ++ active g :: rest.map active)) =
        (List.range (active g).toNat).map fun k =>
          ⟨index + k, total, former.length, g.name, k, g.threads⟩ := by
      rw [List.filter_map, ← filter_range_lt hg]
      congr 1
      refine List.filter_congr fun k _ => ?_
      simp [Settings.isActive]
    have hothers := ih hrest (index + g.threads.toNat) (former ++ [active g])
    rw [List.length_append, List.length_singleton, List.append_assoc, List.singleton_append]
      at hothers
    rw [layoutFrom, List.map_cons, List.map_cons, List.filter_append, List.length_append, hown,
      hothers, List.length_map, List.length_range]
    rfl

end Seat

/-! ### Totals -/

namespace Whole

/-- A sum in 32 bits is the sum, where that has 32 bits. -/
theorem toNat_foldl_add (ns : List UInt32) (start : UInt32)
    (hfits : start.toNat + total (ns.map UInt32.toNat) ≤ max32) :
    (ns.foldl (· + ·) start).toNat = start.toNat + total (ns.map UInt32.toNat) := by
  have hmax : max32 = 4294967295 := rfl
  induction ns generalizing start with
  | nil => rfl
  | cons n ns ih =>
    rw [List.map_cons, total] at hfits ⊢
    have hsum : (start + n).toNat = start.toNat + n.toNat := by
      rw [UInt32.toNat_add]
      omega
    rw [List.foldl_cons, ih, hsum, Nat.add_assoc]
    omega

theorem length_le_total {α : Type} {items : List α} {size : α → ℕ}
    (hpos : ∀ item ∈ items, 0 < size item) : items.length ≤ total (items.map size) := by
  induction items with
  | nil => exact Nat.le_refl 0
  | cons item rest ih =>
    obtain ⟨hitem, hrest⟩ := List.forall_mem_cons.1 hpos
    have hle := ih hrest
    rw [List.length_cons, List.map_cons, total]
    omega

end Whole

namespace Settings

variable {s : Settings} {index : UInt32} {seat : Seat}

/-! ### How many take part -/

/-- How many threads of a group take part in an iteration. -/
def activeOf (s : Settings) (index : UInt32) (g : Group) : UInt32 :=
  if s.scale then min g.threads (successor index) else g.threads

/-- With scaling there is one more in every iteration.  That the successor of the last index is that
index again does not matter, as no group is larger. -/
theorem toNat_activeOf (s : Settings) (index : UInt32) (g : Group) :
    (s.activeOf index g).toNat =
      if s.scale then min g.threads.toNat (index.toNat + 1) else g.threads.toNat := by
  have hthreads : g.threads.toNat < 4294967296 := g.threads.toNat_lt
  have hindex : index.toNat < 4294967296 := index.toNat_lt
  have hmax : Whole.max32 = 4294967295 := rfl
  unfold activeOf
  split
  · have hmin : (min g.threads (successor index)).toNat =
        min g.threads.toNat (successor index).toNat := by
      rw [UInt32.min_def, Nat.min_def]
      simp only [UInt32.le_iff_toNat_le]
      split <;> rfl
    rw [hmin, successor]
    split
    · omega
    · rw [UInt32.toNat_add, UInt32.toNat_one]
      omega
  · rfl

theorem toNat_activeOf_le (s : Settings) (index : UInt32) (g : Group) :
    (s.activeOf index g).toNat ≤ g.threads.toNat := by
  rw [toNat_activeOf]
  split
  · exact Nat.min_le_left _ _
  · exact Nat.le_refl _

theorem toNat_activeOf_pos {g : Group} (hoccupied : g.threads ≠ 0) :
    0 < (s.activeOf index g).toNat := by
  have hthreads : 0 < g.threads.toNat :=
    Nat.pos_of_ne_zero fun hzero => hoccupied (UInt32.toNat_inj.1 hzero)
  rw [toNat_activeOf]
  split
  · exact Nat.lt_min.2 ⟨hthreads, Nat.succ_pos _⟩
  · exact hthreads

theorem activeThreads_eq (s : Settings) (index : UInt32) :
    s.activeThreads index = s.groups.map (s.activeOf index) := rfl

/-- The seats that take part in an iteration. -/
def activeSeats (s : Settings) (index : UInt32) : List Seat :=
  (Seat.layout s.groups).filter (isActive (s.activeThreads index))

/-- As many threads take part in an iteration as are to be active in all groups together. -/
theorem length_activeSeats (s : Settings) (index : UInt32) :
    (s.activeSeats index).length = Whole.total ((s.activeThreads index).map UInt32.toNat) := by
  have hlayout := Seat.length_filter_layoutFrom s.groups
    (fun g _ => s.toNat_activeOf_le index g) (totalThreads s.groups) 0 []
  rw [activeThreads_eq, List.map_map]
  exact hlayout

/-! ### Who takes part -/

/-- **Which threads take part**: of each group the first ones, as many as are to. -/
theorem isActive_iff (hseat : seat ∈ Seat.layout s.groups) :
    isActive (s.activeThreads index) seat = true ↔
      s.scale = true → seat.indexInGroup ≤ index.toNat := by
  obtain ⟨g, group, k, hgroup, hk, rfl⟩ := Seat.mem_layout_iff.1 hseat
  have hactive : (s.activeThreads index).getD g 0 = s.activeOf index group := by
    rw [activeThreads_eq, List.getD_eq_getElem?_getD, List.getElem?_map, hgroup]
    rfl
  rw [isActive, decide_eq_true_iff, hactive, toNat_activeOf]
  split
  · next hscale =>
    simp only [hscale, forall_const]
    omega
  · next hscale => exact iff_of_true hk fun h => absurd h hscale

/-- Without scaling all threads take part. -/
theorem activeSeats_of_not_scale (hscale : s.scale = false) (index : UInt32) :
    s.activeSeats index = Seat.layout s.groups :=
  List.filter_eq_self.2 fun _ hseat => (isActive_iff hseat).2 fun h => by
    rw [hscale] at h
    cases h

/-- Who takes part in an iteration takes part in the later ones. -/
theorem activeSeats_subset {next : UInt32} (h : index ≤ next) :
    s.activeSeats index ⊆ s.activeSeats next := by
  intro seat hactive
  obtain ⟨hseat, hactive⟩ := List.mem_filter.1 hactive
  refine List.mem_filter.2 ⟨hseat, (isActive_iff hseat).2 fun hscale => ?_⟩
  exact Nat.le_trans ((isActive_iff hseat).1 hactive hscale) (UInt32.le_iff_toNat_le.1 h)

/-- With scaling all threads take part as soon as the largest group is complete. -/
theorem activeSeats_eq_layout_iff (hscale : s.scale = true) {largest : ℕ}
    (hlargest : (s.groups.map fun g => g.threads.toNat).max? = some largest) :
    s.activeSeats index = Seat.layout s.groups ↔ largest - 1 ≤ index.toNat := by
  obtain ⟨hmem, hmax⟩ := List.max?_eq_some_iff.1 hlargest
  have hfull : s.activeSeats index = Seat.layout s.groups ↔
      ∀ seat ∈ Seat.layout s.groups, seat.indexInGroup ≤ index.toNat := by
    refine List.filter_eq_self.trans (forall₂_congr fun seat hseat => ?_)
    rw [isActive_iff hseat]
    exact forall_prop_of_true hscale
  rw [hfull]
  constructor
  · intro hall
    obtain ⟨group, hgroup, rfl⟩ := List.mem_map.1 hmem
    obtain ⟨g, hg⟩ := List.mem_iff_getElem?.1 hgroup
    refine Nat.le_of_not_lt fun hlate => ?_
    have hlast := hall _ (Seat.mem_layout_iff.2
      ⟨g, group, group.threads.toNat - 1, hg, by omega, rfl⟩)
    dsimp only at hlast
    omega
  · intro hlate seat hseat
    obtain ⟨g, group, k, hgroup, hk, rfl⟩ := Seat.mem_layout_iff.1 hseat
    have hle := hmax _ (List.mem_map_of_mem (List.mem_of_getElem? hgroup))
    dsimp only at hle ⊢
    omega

/-! ### Agreement -/

/-- What a specification settles has a group with a thread, none without one, and no iteration in
which there is nothing to measure. -/
theorem isPositive_of_resolve {s : Spec} {d : Declaration} {settings : Settings}
    (h : resolve s d = .ok settings) :
    settings.groups ≠ [] ∧ (∀ g ∈ settings.groups, g.threads ≠ 0) ∧
      ∀ phase, (settings.phase phase).length.isPositive := by
  obtain ⟨hrunnable, rfl⟩ := resolve_eq_ok_iff.1 h
  have hsound := isSound_settled hrunnable
  exact ⟨hsound.groups, hsound.threads, hsound.positive⟩

/-- What is said about an iteration agrees with the seats that take part in it. -/
structure Agrees (s : Settings) (index : UInt32) : Prop where
  /-- They are as many as are active in all groups together. -/
  active_eq : (s.activeSeats index).length = Whole.total ((s.activeThreads index).map UInt32.toNat)
  /-- So they are when these are added up in 32 bits. -/
  sum_eq : ((s.activeThreads index).foldl (· + ·) 0).toNat = (s.activeSeats index).length
  /-- That is what the sequence of a phase says about an iteration that there is. -/
  sequence_eq : ∀ phase, index < (s.phase phase).count →
    ((s.threadSequence phase)[index.toNat]?).map UInt32.toNat = some (s.activeSeats index).length
  /-- There is at least one from each group. -/
  groups_le : s.groups.length ≤ (s.activeSeats index).length
  /-- Every seat finds the number of the active threads of its group. -/
  inBounds : ∀ seat ∈ Seat.layout s.groups, seat.groupIndex < (s.activeThreads index).length

/-- The sequence of a phase has an entry for each of its iterations. -/
theorem getElem?_threadSequence {phase : Phase} (h : index < (s.phase phase).count) :
    (s.threadSequence phase)[index.toNat]? = some ((s.activeThreads index).foldl (· + ·) 0) := by
  rw [threadSequence, List.getElem?_map, List.getElem?_range (UInt32.lt_iff_toNat_lt.1 h),
    Option.map_some, UInt32.ofNat_toNat]

theorem agrees_of_fits (hoccupied : ∀ g ∈ s.groups, g.threads ≠ 0)
    (hfits : totalThreads s.groups ≤ Whole.max32) (index : UInt32) : s.Agrees index := by
  have hactive := s.length_activeSeats index
  have hle : (s.activeSeats index).length ≤ totalThreads s.groups :=
    Seat.length_layout s.groups ▸ List.length_filter_le _ _
  have hsum : ((s.activeThreads index).foldl (· + ·) 0).toNat = (s.activeSeats index).length := by
    rw [Whole.toNat_foldl_add _ 0 (by rw [UInt32.toNat_zero]; omega), UInt32.toNat_zero, hactive,
      Nat.zero_add]
  refine ⟨hactive, hsum, fun phase hphase => ?_, ?_, fun seat hseat => ?_⟩
  · rw [getElem?_threadSequence hphase, Option.map_some, hsum]
  · rw [hactive, activeThreads_eq, List.map_map]
    exact Whole.length_le_total fun g hg => toNat_activeOf_pos (hoccupied g hg)
  · obtain ⟨g, group, k, hgroup, -, rfl⟩ := Seat.mem_layout_iff.1 hseat
    rw [activeThreads_eq, List.length_map]
    exact (List.getElem?_eq_some_iff.1 hgroup).1

/-- **Layout and ramp agree** in every trial that can be run and whose threads can be counted in 32
bits: the layout has a seat for every thread, and in every iteration as many of the seats take part
as the active threads of the groups, and the sequence of the phase, say.  With scaling those of an
iteration take part in the later ones, and all of them do from that on in which the largest group is
complete; without it all of them always do. -/
theorem layout_agrees {spec : Spec} {d : Declaration} (h : resolve spec d = .ok s)
    (hfits : totalThreads s.groups ≤ Whole.max32) :
    Seat.IsLayout s.groups (Seat.layout s.groups) ∧ (∀ index, s.Agrees index) ∧
      (s.scale = true →
        (∀ index next, index ≤ next → s.activeSeats index ⊆ s.activeSeats next) ∧
        ∃ largest, (s.groups.map fun g => g.threads.toNat).max? = some largest ∧
          ∀ index, s.activeSeats index = Seat.layout s.groups ↔ largest - 1 ≤ index.toNat) ∧
      (s.scale = false → ∀ index, s.activeSeats index = Seat.layout s.groups) := by
  obtain ⟨hsome, hoccupied, -⟩ := isPositive_of_resolve h
  refine ⟨Seat.isLayout_layout s.groups, agrees_of_fits hoccupied hfits,
    fun hscale => ⟨fun _ _ => activeSeats_subset, ?_⟩, activeSeats_of_not_scale⟩
  have hsizes : (s.groups.map fun g => g.threads.toNat) ≠ [] := mt List.map_eq_nil_iff.1 hsome
  obtain ⟨largest, hlargest⟩ := Option.ne_none_iff_exists'.1 (mt List.max?_eq_none_iff.1 hsizes)
  exact ⟨largest, hlargest, fun _ => activeSeats_eq_layout_iff hscale hlargest⟩

/-- A queue with three producers and one consumer is complete in its third iteration. -/
theorem layout_agrees_queue :
    let spec : Spec := { queueShots with scale := some true }
    let s := spec.settled queue
    resolve spec queue = .ok s ∧ totalThreads s.groups ≤ Whole.max32 ∧
      [0, 1, 2, 3].map (fun index => (s.activeSeats index).map (·.index)) =
        [[0, 3], [0, 1, 3], [0, 1, 2, 3], [0, 1, 2, 3]] ∧
      Seat.IsLayout s.groups (Seat.layout s.groups) ∧ (∀ index, s.Agrees index) ∧
      (s.scale = true →
        (∀ index next, index ≤ next → s.activeSeats index ⊆ s.activeSeats next) ∧
        ∃ largest, (s.groups.map fun g => g.threads.toNat).max? = some largest ∧
          ∀ index, s.activeSeats index = Seat.layout s.groups ↔ largest - 1 ≤ index.toNat) ∧
      (s.scale = false → ∀ index, s.activeSeats index = Seat.layout s.groups) := by
  intro spec s
  have hresolve : resolve spec queue = .ok s := rfl
  have hfits : totalThreads s.groups ≤ Whole.max32 := by decide
  exact ⟨hresolve, hfits, rfl, layout_agrees hresolve hfits⟩

end Settings

/-! ### The threads of an iteration -/

namespace Conductor

variable {m : Type → Type} {c : Conductor m}

/-- **As many threads take part in an iteration** as are to be active in all groups together. -/
theorem length_activeSeats (c : Conductor m) (index : UInt32) :
    (c.activeSeats index).length =
      Whole.total ((c.settings.activeThreads index).map UInt32.toNat) :=
  c.settings.length_activeSeats index

/-- In every iteration a thread takes part. -/
theorem activeSeats_ne_nil (hsome : c.settings.groups ≠ [])
    (hoccupied : ∀ g ∈ c.settings.groups, g.threads ≠ 0) (index : UInt32) :
    c.activeSeats index ≠ [] := by
  obtain ⟨g, rest, hgroups⟩ := List.exists_cons_of_ne_nil hsome
  have hg : g.threads ≠ 0 := hoccupied g (hgroups ▸ List.mem_cons_self)
  refine List.ne_nil_of_length_pos ?_
  rw [length_activeSeats, Settings.activeThreads_eq, hgroups, List.map_cons, List.map_cons]
  exact Nat.lt_of_lt_of_le (Settings.toNat_activeOf_pos hg) (Nat.le_add_right _ _)

end Conductor

end Microbench
