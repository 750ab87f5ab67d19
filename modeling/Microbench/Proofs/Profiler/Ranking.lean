import Mathlib.Algebra.BigOperators.Group.Finset.Basic
import Mathlib.Algebra.GroupWithZero.Nat
import Mathlib.Data.List.Dedup
import Microbench.Dict
import Microbench.Proofs.Profiler.Filtering

/-!
# Hot symbols in order

The samples of an event are counted by their addresses, and the addresses belong to symbols.
Every address belongs to one symbol, so each sample is counted for one symbol and none is lost.
What is reported are the first of the symbols, in an order that leaves no choice: those with more
samples come first, and of those with as many the name decides.

## Main definitions

* `Hotspots.BelongsTo` — where an address belongs.
* `Hotspots.IsRanking` — the symbols of an event with their counts, in order.
* `Hotspots.ranking` — this list.
* `Hotspots.Counts` — a line that counts for some event.

## Main results

* `Hotspots.resolve_eq_iff` — an address belongs to one symbol.
* `Hotspots.isRanking_ranking` — nothing is lost in the ranking.
* `Hotspots.collect_ranked` — **rankings conserve samples.**
-/

namespace List

theorem nodup_eraseDups {α : Type} [DecidableEq α] (l : List α) : l.eraseDups.Nodup := by
  induction hlength : l.length using Nat.strongRecOn generalizing l with
  | ind n ih =>
    cases l with
    | nil => exact .nil
    | cons a l =>
      rw [eraseDups_cons, nodup_cons, mem_eraseDups]
      refine ⟨by simp, ih _ ?_ _ rfl⟩
      rw [← hlength, length_cons]
      exact Nat.lt_succ_of_le (length_filter_le _ l)

/-- What is mapped to a value is counted with what it is mapped from. -/
theorem count_map_eq_sum {α β : Type} [DecidableEq α] [DecidableEq β] (f : α → β) (l : List α)
    (b : β) : (l.map f).count b = ∑ a ∈ l.toFinset with f a = b, l.count a := by
  calc (l.map f).count b = (l.filter fun a => f a = b).length := by
        rw [count_eq_countP, countP_map, countP_eq_length_filter]
        rfl
    _ = ∑ a ∈ l.toFinset with f a = b, (l.filter fun a => f a = b).count a := by
        rw [← sum_toFinset_count_eq_length, toFinset_filter]
        simp only [decide_eq_true_eq]
    _ = ∑ a ∈ l.toFinset with f a = b, l.count a := by
        refine Finset.sum_congr rfl fun a ha => count_filter ?_
        exact decide_eq_true (Finset.mem_filter.1 ha).2

/-- The counts of all values make the length. -/
theorem sum_count_eraseDups {α : Type} [DecidableEq α] (l : List α) :
    (l.eraseDups.map fun a => l.count a).sum = l.length := by
  have hset : l.eraseDups.toFinset = l.toFinset := by
    ext a
    rw [mem_toFinset, mem_toFinset, mem_eraseDups]
  rw [← sum_toFinset _ (nodup_eraseDups l), hset, sum_toFinset_count_eq_length]

end List

namespace Microbench

namespace Symbol

instance : Std.TransCmp compare :=
  inferInstanceAs (Std.TransCmp (compareLex (compareOn name) (compareOn image)))

instance : Std.LawfulEqCmp compare where
  eq_of_compare {a b} h := by
    have hboth : a.name = b.name ∧ a.image = b.image := by
      simpa only [compare, Ordering.then_eq_eq, Std.LawfulEqOrd.compare_eq_iff_eq] using h
    cases a
    cases b
    cases hboth.1
    cases hboth.2
    rfl

end Symbol

namespace Hotspots

variable {h : Hotspots} {event : String} {address : Nat} {symbol : Symbol}

/-! ### Where an address belongs -/

/-- Where an address belongs: the addresses of the kernel together, others with the first symbol
that they were seen with, and those that were never seen with a symbol together. -/
inductive BelongsTo (h : Hotspots) (address : Nat) : Symbol → Prop
  | kernel (hkernel : Symbol.kernelStart ≤ address) : BelongsTo h address .kernel
  | seen (huser : address < Symbol.kernelStart) {before after : List Sample} {s : Sample}
      (hsamples : h.samples = before ++ s :: after) (haddress : s.address = address)
      (hnamed : isNamed s) (hfirst : ∀ t ∈ before, t.address = address → ¬ isNamed t) :
      BelongsTo h address ⟨s.symbol, s.image⟩
  | unseen (huser : address < Symbol.kernelStart)
      (hnone : ∀ t ∈ h.samples, t.address = address → ¬ isNamed t) : BelongsTo h address .unknown

theorem belongsTo_resolve (h : Hotspots) (address : Nat) :
    h.BelongsTo address (h.resolve address) := by
  rw [resolve]
  split
  · next hkernel => exact .kernel hkernel
  · next huser =>
    rw [Nat.not_le] at huser
    split
    · next s hs =>
      obtain ⟨hfound, before, after, hsamples, hbefore⟩ := List.find?_eq_some_iff_append.1 hs
      obtain ⟨haddress, hnamed⟩ := of_decide_eq_true hfound
      refine .seen huser hsamples haddress hnamed fun t ht hta htn => ?_
      exact absurd (hbefore t ht) (by simp [hta, htn])
    · next hnone =>
      refine .unseen huser fun t ht hta htn => ?_
      exact List.find?_eq_none.1 hnone t ht (decide_eq_true ⟨hta, htn⟩)

theorem BelongsTo.resolve_eq (hbelongs : h.BelongsTo address symbol) :
    h.resolve address = symbol := by
  cases hbelongs with
  | kernel hkernel => rw [resolve, if_pos hkernel]
  | @seen huser before after s hsamples haddress hnamed hfirst =>
    have hfound : h.samples.find? (fun s => s.address = address ∧ isNamed s) = some s := by
      refine List.find?_eq_some_iff_append.2 ⟨decide_eq_true ⟨haddress, hnamed⟩, before, after,
        hsamples, fun t ht => ?_⟩
      rw [Bool.not_eq_true', decide_eq_false_iff_not]
      exact fun ⟨hta, htn⟩ => hfirst t ht hta htn
    rw [resolve, if_neg (Nat.not_le.2 huser), hfound]
  | unseen huser hnone =>
    have hnotFound : h.samples.find? (fun s => s.address = address ∧ isNamed s) = none := by
      refine List.find?_eq_none.2 fun t ht => ?_
      simpa using hnone t ht
    rw [resolve, if_neg (Nat.not_le.2 huser), hnotFound]

/-- An address belongs to one symbol. -/
theorem resolve_eq_iff : h.resolve address = symbol ↔ h.BelongsTo address symbol :=
  ⟨fun heq => heq ▸ belongsTo_resolve h address, BelongsTo.resolve_eq⟩

instance : Decidable (h.BelongsTo address symbol) := decidable_of_iff _ resolve_eq_iff

/-! ### The order of symbols -/

/-- The order of counted symbols: the one with more samples first, of two with as many the one
that comes first by its name. -/
def compareCounted : Symbol × Nat → Symbol × Nat → Ordering :=
  compareLex (fun a b => compare b.2 a.2) (fun a b => a.1.compare b.1)

instance : Std.TransCmp compareCounted :=
  have : Std.TransCmp fun a b : Symbol × Nat => compare b.2 a.2 :=
    { eq_swap := Std.OrientedCmp.eq_swap
      isLE_trans := fun hab hbc => Std.TransCmp.isLE_trans hbc hab }
  have : Std.TransCmp fun a b : Symbol × Nat => a.1.compare b.1 :=
    { eq_swap := Std.OrientedCmp.eq_swap
      isLE_trans := Std.TransCmp.isLE_trans }
  inferInstanceAs (Std.TransCmp (compareLex _ _))

theorem notAfter_eq (a b : Symbol × Nat) : notAfter a b = (compareCounted a b).isLE := by
  show _ = ((compare b.2 a.2).then (a.1.compare b.1)).isLE
  unfold notAfter
  rcases Nat.lt_trichotomy b.2 a.2 with hlt | heq | hgt
  · simp [Nat.compare_eq_lt.2 hlt, hlt]
  · rw [heq]
    cases a.1.compare b.1 <;> simp
  · simp [Nat.compare_eq_gt.2 hgt, hgt.ne, Nat.le_of_lt hgt]

theorem compareCounted_eq_lt_iff {a b : Symbol × Nat} : compareCounted a b = .lt ↔
    b.2 < a.2 ∨ a.2 = b.2 ∧ a.1.compare b.1 = .lt := by
  show (compare b.2 a.2).then (a.1.compare b.1) = .lt ↔ _
  rw [Ordering.then_eq_lt, Nat.compare_eq_lt, Nat.compare_eq_eq]
  exact or_congr_right (and_congr_left' eq_comm)

/-- Sorting puts symbols in order, strictly so if none occurs twice. -/
theorem pairwise_mergeSort_notAfter {counts : List (Symbol × Nat)}
    (hnodup : (counts.map Prod.fst).Nodup) :
    (counts.mergeSort notAfter).Pairwise fun a b => compareCounted a b = .lt := by
  have htrans (a b c : Symbol × Nat) (hab : notAfter a b) (hbc : notAfter b c) : notAfter a c := by
    rw [notAfter_eq] at hab hbc ⊢
    exact Std.TransCmp.isLE_trans hab hbc
  have htotal (a b : Symbol × Nat) : notAfter a b || notAfter b a := by
    have hswap : compareCounted b a = (compareCounted a b).swap := Std.OrientedCmp.eq_swap
    rw [notAfter_eq, notAfter_eq, hswap]
    cases compareCounted a b <;> rfl
  have hsorted := List.pairwise_mergeSort htrans htotal counts
  have hne : (counts.mergeSort notAfter).Pairwise fun a b => a.1 ≠ b.1 :=
    List.pairwise_map.1 (((List.mergeSort_perm counts notAfter).map Prod.fst).nodup_iff.2 hnodup)
  refine (hsorted.and hne).imp fun {a b} ⟨hle, hne⟩ => ?_
  rw [notAfter_eq] at hle
  cases hcompare : compareCounted a b with
  | lt => rfl
  | eq =>
    have hsame : a.1.compare b.1 = .eq := (Ordering.then_eq_eq.1 hcompare).2
    exact absurd (Std.LawfulEqCmp.eq_of_compare hsame) hne
  | gt =>
    rw [hcompare] at hle
    cases hle

/-! ### Rankings -/

/-- The addresses that samples of an event were taken at. -/
def addresses (h : Hotspots) (event : String) : List Nat := (h.ofEvent event).map (·.address)

/-- The symbols of an event with their counts. -/
structure IsRanking (h : Hotspots) (event : String) (ranking : List (Symbol × Nat)) : Prop where
  /-- No symbol occurs twice. -/
  distinct : (ranking.map Prod.fst).Nodup
  /-- More samples come first, then the name decides. -/
  ordered : ranking.Pairwise fun a b => b.2 < a.2 ∨ a.2 = b.2 ∧ a.1.compare b.1 = .lt
  /-- There are the symbols that an address of the event belongs to. -/
  mem_iff : ∀ symbol, symbol ∈ ranking.map Prod.fst ↔
    ∃ address ∈ h.addresses event, h.BelongsTo address symbol
  /-- A symbol has the samples at the addresses that belong to it. -/
  count_eq : ∀ symbol count, (symbol, count) ∈ ranking →
    count = ∑ address ∈ (h.addresses event).toFinset with h.BelongsTo address symbol,
      (h.addresses event).count address
  /-- No sample is lost. -/
  conserved : (ranking.map Prod.snd).sum = h.total event

/-- All symbols of an event, the hottest first. -/
def ranking (h : Hotspots) (event : String) : List (Symbol × Nat) :=
  let symbols := (h.addresses event).map h.resolve
  (symbols.eraseDups.map fun s => (s, symbols.count s)).mergeSort notAfter

theorem top_eq (h : Hotspots) (event : String) (n : Nat) :
    h.top event n = (h.ranking event).take n := by
  have hsymbols : (h.ofEvent event).map (fun s => h.resolve s.address) =
      (h.addresses event).map h.resolve := by
    rw [addresses, List.map_map]
    rfl
  rw [top, hsymbols, ranking]

theorem isRanking_ranking (h : Hotspots) (event : String) :
    h.IsRanking event (h.ranking event) := by
  generalize hsymbols : (h.addresses event).map h.resolve = symbols
  have hranking : h.ranking event =
      (symbols.eraseDups.map fun s => (s, symbols.count s)).mergeSort notAfter := by
    rw [ranking, hsymbols]
  have hperm : (h.ranking event).Perm (symbols.eraseDups.map fun s => (s, symbols.count s)) :=
    hranking ▸ List.mergeSort_perm _ _
  have hnames : (symbols.eraseDups.map fun s => (s, symbols.count s)).map Prod.fst =
      symbols.eraseDups := by
    rw [List.map_map]
    exact List.map_id _
  have hfst : ((h.ranking event).map Prod.fst).Perm symbols.eraseDups :=
    hnames ▸ hperm.map Prod.fst
  refine ⟨?_, ?_, fun symbol => ?_, fun symbol count hmem => ?_, ?_⟩
  · exact hfst.nodup_iff.2 (List.nodup_eraseDups symbols)
  · rw [hranking]
    refine (pairwise_mergeSort_notAfter ?_).imp compareCounted_eq_lt_iff.1
    rw [hnames]
    exact List.nodup_eraseDups symbols
  · rw [hfst.mem_iff, List.mem_eraseDups, ← hsymbols, List.mem_map]
    simp only [resolve_eq_iff]
  · obtain ⟨s, -, heq⟩ := List.mem_map.1 (hperm.mem_iff.1 hmem)
    obtain ⟨rfl, rfl⟩ := Prod.mk.inj heq
    rw [← hsymbols, List.count_map_eq_sum]
    simp only [resolve_eq_iff]
  · rw [(hperm.map Prod.snd).sum_eq, List.map_map, total, ← List.length_map (·.address),
      ← addresses, ← List.length_map h.resolve, hsymbols]
    exact List.sum_count_eraseDups symbols

/-! ### Metrics -/

/-- How many samples there are of an event. -/
def countMetric (event : String) (total : Nat) : Metric :=
  .scalar ("·perf." ++ event) (Float.ofNat total) "#" .sum

/-- The share of a symbol in an event in per cent. -/
def shareMetric (event : String) (total : Nat) (entry : Symbol × Nat) : Metric :=
  .scalar ("·perf." ++ event ++ ": " ++ entry.1.text)
    (Float.ofNat entry.2 * 100.0 / Float.ofNat total) "%" .average

theorem eventMetrics_eq (h : Hotspots) (n : Nat) (event : String) :
    h.eventMetrics n event = countMetric event (h.total event) ::
      ((h.ranking event).take n).map (shareMetric event (h.total event)) := by
  rw [eventMetrics, top_eq]
  rfl

theorem mem_eventNames_iff : event ∈ h.eventNames ↔ event ∈ h.events := by
  rw [eventNames, (List.mergeSort_perm _ _).mem_iff, List.mem_eraseDups]

/-- The events are reported in the order of their names, each of them once. -/
theorem pairwise_eventNames (h : Hotspots) : h.eventNames.Pairwise (· < ·) := by
  have hle (a b : String) : (!decide (b < a)) = true ↔ a ≤ b := by
    rw [Bool.not_eq_true', decide_eq_false_iff_not, String.not_lt]
  have htrans (a b c : String) : (!decide (b < a)) = true → (!decide (c < b)) = true →
      (!decide (c < a)) = true := by
    simpa only [hle] using String.le_trans
  have htotal (a b : String) : (!decide (b < a) || !decide (a < b)) = true := by
    simpa only [Bool.or_eq_true, hle] using String.le_total a b
  have hsorted : h.eventNames.Pairwise fun a b => (!decide (b < a)) = true :=
    List.pairwise_mergeSort htrans htotal h.events.eraseDups
  have hnodup : h.eventNames.Nodup :=
    (List.mergeSort_perm _ _).nodup_iff.2 (List.nodup_eraseDups h.events)
  refine (hsorted.and hnodup).imp fun {a b} ⟨hle, hne⟩ => ?_
  rw [Bool.not_eq_true', decide_eq_false_iff_not] at hle
  exact Dict.lt_of_not_lt_of_ne hle (Ne.symm hne)

section

variable {lines events : List String} {pid : Nat} {skip : Duration}

/-- A line counts for some event. -/
def Counts (lines : List String) (pid : Nat) (skip : Duration) (events : List String)
    (line : String) : Prop :=
  ∃ event, CountsFor lines pid skip events event line

theorem isEmpty_collect_iff : (collect lines pid skip events).isEmpty ↔
    ∀ line ∈ lines, ¬ Counts lines pid skip events line := by
  rw [isEmpty, List.isEmpty_iff, collect_eq, List.filterMap_eq_nil_iff]
  refine forall₂_congr fun line _ => ?_
  simp only [Counts, ← countedAs_event_eq_some_iff]
  cases countedAs pid skip events (firstSample? lines) line <;> simp

theorem events_collect : (collect lines pid skip events).events = events :=
  congrArg Hotspots.events (collect_eq lines pid skip events)

/-- Where a line counts, all events are reported. -/
theorem metrics_of_counts {line : String} (hmem : line ∈ lines)
    (hcounts : Counts lines pid skip events line) (n : Nat) :
    (collect lines pid skip events).metrics n =
      (collect lines pid skip events).eventNames.flatMap
        ((collect lines pid skip events).eventMetrics n) := by
  have hempty : ¬ (collect lines pid skip events).isEmpty :=
    fun h => isEmpty_collect_iff.1 h line hmem hcounts
  rw [metrics, if_neg hempty]

/-- One of them is the event that the line counts for. -/
theorem metrics_ne_nil {line : String} (hmem : line ∈ lines)
    (hcounts : Counts lines pid skip events line) (n : Nat) :
    (collect lines pid skip events).metrics n ≠ [] := by
  rw [metrics_of_counts hmem hcounts]
  obtain ⟨event, hevent⟩ := hcounts
  have hname : event ∈ (collect lines pid skip events).eventNames :=
    mem_eventNames_iff.2 (events_collect ▸ hevent.mem)
  intro hnil
  have hentries := List.flatMap_eq_nil_iff.1 hnil event hname
  rw [eventMetrics_eq] at hentries
  cases hentries

/-- **Rankings conserve samples.**  For every event there is one list of symbols with their counts,
and the hottest symbols are its first entries: no symbol occurs twice, more samples come first and
of as many the name decides, every symbol has all samples at the addresses that belong to it, and
together the symbols have all samples of the event.  Nothing is reported where no line counts.
Otherwise every event asked for is reported once with its total, and behind it the share of each of
its hottest symbols; an event without samples has none. -/
theorem collect_ranked (script : ByteArray) (pid : Nat) (skip : Duration) (events : List String) :
    let lines := Text.lines script
    let h := collect lines pid skip events
    ∃ ranking : String → List (Symbol × Nat),
      (∀ event, h.IsRanking event (ranking event)) ∧
      (∀ event n, h.top event n = (ranking event).take n) ∧
      ∀ n, ((∀ line ∈ lines, ¬ Counts lines pid skip events line) ∧ h.metrics n = []) ∨
        ((∃ line ∈ lines, Counts lines pid skip events line) ∧ h.metrics n ≠ [] ∧
          ∃ names : List String, names.Pairwise (· < ·) ∧
            (∀ event, event ∈ names ↔ event ∈ events) ∧
            h.metrics n = names.flatMap fun event => countMetric event (h.total event) ::
              ((ranking event).take n).map (shareMetric event (h.total event))) := by
  intro lines h
  refine ⟨h.ranking, h.isRanking_ranking, h.top_eq, fun n => ?_⟩
  by_cases hcounts : ∃ line ∈ lines, Counts lines pid skip events line
  · obtain ⟨line, hmem, hline⟩ := hcounts
    refine .inr ⟨⟨line, hmem, hline⟩, metrics_ne_nil hmem hline n, h.eventNames,
      h.pairwise_eventNames, fun event => ?_, ?_⟩
    · rw [mem_eventNames_iff, events_collect]
    · rw [metrics_of_counts hmem hline]
      exact congrArg h.eventNames.flatMap (funext (eventMetrics_eq h n))
  · have hnone : ∀ line ∈ lines, ¬ Counts lines pid skip events line :=
      fun line hmem hline => hcounts ⟨line, hmem, hline⟩
    refine .inl ⟨hnone, ?_⟩
    rw [metrics, if_pos (isEmpty_collect_iff.2 hnone)]

end

end Hotspots

end Microbench
