import Microbench.Proofs.Engine.Harvest

/-!
# Requests in any order

What runs a trial is asked for one thing after the other: to set the trial up, to
run the next iteration, to tear it down.  Nobody is obliged to ask in order, and
any request may fail.  Whatever is asked, the iterations that are reported are the
first ones of the schedule, teardown answers with their number, and nothing goes
well after the first failure.

## Main definitions

* `Request`, `Grant`, `Entry` — what is asked for, what is given, and both with the positions of
  the trial around them.
* `Conductor.attend` — attend to requests one after the other.
* `Lifecycle.admits` — whether a request is in place.
* `Progress`, `Progress.Moves` — how far a trial has come, and all that a request can lead to.
* `Orderly` — what holds of the entries, whatever was asked.

## Main results

* `Conductor.handle_moves` — a request leads to nothing else.
* `Conductor.handle_misplaced` — a request out of place runs nothing.
* `Conductor.attend_orderly` — **requests in any order.**
-/

namespace Microbench

/-- What can be asked of what runs a trial. -/
inductive Request
  /-- To set the trial up. -/
  | setUp
  /-- To run the next iteration. -/
  | iterate
  /-- To tear the trial down. -/
  | tearDown
  deriving DecidableEq, Repr

/-- What is given to a request that goes well. -/
inductive Grant
  /-- The trial has been set up. -/
  | ready
  /-- The report of an iteration. -/
  | report (r : Report)
  /-- The trial has been torn down after so many iterations. -/
  | finished (n : UInt32)

/-- A request, the answer to it, and where the trial was before and is afterwards. -/
structure Entry where
  request : Request
  before : Lifecycle
  answer : Except Failure Grant
  after : Lifecycle

/-- The iteration that an entry reports. -/
def Entry.place? (e : Entry) : Option (Phase × UInt32) :=
  match e.answer with
  | .ok (.report r) => some r.place
  | _ => none

/-- The iterations that are reported, in order. -/
def Entry.places (entries : List Entry) : List (Phase × UInt32) := entries.filterMap Entry.place?

/-- Whether a request is in place: setup at the very start, an iteration while one is left, and
teardown whenever iterations may be run. -/
def Lifecycle.admits (s : Settings) : Lifecycle → Request → Bool
  | ready, .setUp => true
  | warmup n, .iterate => n < s.warmup.count || 0 < s.measurement.count
  | measurement n, .iterate => n < s.measurement.count
  | warmup _, .tearDown => true
  | measurement _, .tearDown => true
  | _, _ => false

namespace Conductor

section

variable {m : Type → Type} [Monad m]

/-- The answer to a call, as one to a request. -/
def grant {α : Type} (give : α → Grant) (a : Answer α) : Answer Grant := (a.1.map give, a.2)

/-- Do what is asked. -/
def handle (c : Conductor m) (request : Request) (position : Lifecycle) : m (Answer Grant) :=
  match request with
  | .setUp => grant (fun _ => .ready) <$> c.setUp position
  | .iterate => grant .report <$> c.iterate position
  | .tearDown => grant .finished <$> c.tearDown position

/-- Attend to requests one after the other, from a position on. -/
def attend (c : Conductor m) : Lifecycle → List Request → m (List Entry)
  | _, [] => pure []
  | before, request :: rest => do
    let (answer, after) ← c.handle request before
    let entries ← attend c after rest
    return ⟨request, before, answer, after⟩ :: entries

end

end Conductor

/-! ### How far a trial has come -/

/-- How far a trial has come; the iterations are counted through both phases. -/
inductive Progress
  /-- Nothing has run. -/
  | ready
  /-- Set up, and so many iterations have been run. -/
  | reached (n : Nat)
  /-- The trial has ended well. -/
  | done
  /-- The trial has failed. -/
  | failed
  deriving DecidableEq

namespace Progress

/-- Where a trial is that has come so far. -/
def position (s : Settings) : Progress → Lifecycle
  | ready => .ready
  | reached n => .reached s n
  | done => .done
  | failed => .failed

/-- No more iterations have been run than there are. -/
def Within (s : Settings) : Progress → Prop
  | reached n => n ≤ s.total
  | _ => True

/-- The iterations that are still to be run. -/
def ahead (s : Settings) : Progress → List (Phase × UInt32)
  | ready => s.schedule
  | reached n => s.schedule.drop n
  | _ => []

/-- How many iterations have been run. -/
def count : Progress → Nat
  | reached n => n
  | _ => 0

/-- All that a request can lead to. -/
inductive Moves (s : Settings) : Progress → Request → Except Failure Grant → Progress → Prop
  /-- The trial is set up. -/
  | setUp : Moves s ready .setUp (.ok .ready) (reached 0)
  /-- The iteration whose turn it is has been run. -/
  | iterate {n : Nat} {r : Report} (left : n < s.total) (turn : r.place = Supervisor.position s n) :
      Moves s (reached n) .iterate (.ok (.report r)) (reached (n + 1))
  /-- The trial is torn down. -/
  | tearDown {n : Nat} (within : n ≤ s.total) :
      Moves s (reached n) .tearDown (.ok (.finished (.ofNat n))) done
  /-- Something went wrong, or the request was out of place. -/
  | fail {p : Progress} {request : Request} {f : Failure} : Moves s p request (.error f) failed

theorem Moves.within {s : Settings} {p p' : Progress} {request : Request}
    {answer : Except Failure Grant} (h : Moves s p request answer p') : p'.Within s := by
  cases h with
  | setUp => exact Nat.zero_le _
  | iterate left _ => exact left
  | tearDown _ => trivial
  | fail => trivial

end Progress

/-- Entries of a trial that had come so far before the first of them. -/
inductive Transcript (s : Settings) : Progress → List Entry → Prop
  /-- Nothing was asked. -/
  | nil {p : Progress} : Transcript s p []
  /-- A request was answered, and others after it. -/
  | cons {p p' : Progress} {request : Request} {answer : Except Failure Grant}
      {entries : List Entry} (moves : p.Moves s request answer p')
      (rest : Transcript s p' entries) :
      Transcript s p (⟨request, p.position s, answer, p'.position s⟩ :: entries)

namespace Conductor

section

variable {m : Type → Type} [Monad m] [LawfulMonad m]

/-- **A request that is out of place runs nothing** and leaves the trial failed. -/
theorem handle_misplaced (c : Conductor m) {request : Request} {position : Lifecycle}
    (h : position.admits c.settings request = false) :
    ∃ f, c.handle request position = pure (.error f, .failed) := by
  have hmap {α : Type} (give : α → Grant) (f : Failure) :
      grant give <$> (pure (.error f, .failed) : m (Answer α)) = pure (.error f, .failed) := by
    rw [map_pure]
    rfl
  cases request with
  | setUp =>
    cases position with
    | ready => exact absurd h (by simp [Lifecycle.admits])
    | _ => exact ⟨_, hmap _ _⟩
  | tearDown =>
    cases position with
    | warmup n => exact absurd h (by simp [Lifecycle.admits])
    | measurement n => exact absurd h (by simp [Lifecycle.admits])
    | _ => exact ⟨_, hmap _ _⟩
  | iterate =>
    cases position with
    | warmup n =>
      -- the warmup is used up, and there is nothing to measure
      have hboth : ¬ n < c.settings.warmup.count ∧ ¬ 0 < c.settings.measurement.count := by
        simpa [Lifecycle.admits] using h
      have hover : c.settings.warmup.count ≤ n := UInt32.not_lt.1 hboth.1
      simp only [handle, iterate, afterWarmup, if_pos hover, nextIteration?, if_neg hboth.2]
      exact ⟨_, hmap _ _⟩
    | measurement n =>
      have hover : ¬ n < c.settings.measurement.count := by simpa [Lifecycle.admits] using h
      simp only [handle, iterate, afterWarmup, nextIteration?, if_neg hover]
      exact ⟨_, hmap _ _⟩
    | _ => exact ⟨_, hmap _ _⟩

end

variable {σ : Type} {c : Conductor (StateM σ)}

/-- A call that does not go well leaves the trial failed. -/
theorem conclude_error {α : Type} {next position : Lifecycle} {x : ExceptT Failure (StateM σ) α}
    {f : Failure} {world world' : σ}
    (h : (conclude next x).run world = ((.error f, position), world')) : position = .failed := by
  unfold conclude at h
  rw [run_bind] at h
  rcases hrun : x.run.run world with ⟨answer, world₁⟩
  rw [hrun] at h
  cases answer with
  | ok a => cases h
  | error f' =>
    cases h
    rfl

theorem iterate_error {position next : Lifecycle} {f : Failure} {world world' : σ}
    (h : (c.iterate position).run world = ((.error f, next), world')) : next = .failed := by
  unfold iterate at h
  dsimp only at h
  split at h
  · exact conclude_error h
  · cases h
    rfl

theorem setUp_error {position next : Lifecycle} {f : Failure} {world world' : σ}
    (h : (c.setUp position).run world = ((.error f, next), world')) : next = .failed := by
  unfold setUp at h
  split at h
  · exact conclude_error h
  · cases h
    rfl

theorem tearDown_error {position next : Lifecycle} {f : Failure} {world world' : σ}
    (h : (c.tearDown position).run world = ((.error f, next), world')) : next = .failed := by
  unfold tearDown at h
  split at h
  · exact conclude_error h
  · cases h
    rfl

/-- **A request leads to nothing but what it can lead to.** -/
theorem handle_moves (hfits : c.settings.total ≤ Whole.max32) {p : Progress}
    (hp : p.Within c.settings) (request : Request) :
    Always (c.handle request (p.position c.settings)) fun a =>
      ∃ p', a.2 = p'.position c.settings ∧ p.Moves c.settings request a.1 p' := by
  intro world
  by_cases hplace : (p.position c.settings).admits c.settings request = false
  · obtain ⟨f, hf⟩ := handle_misplaced c hplace
    rw [hf]
    exact ⟨.failed, rfl, .fail⟩
  cases request with
  | setUp =>
    rw [handle, run_map]
    rcases hrun : (c.setUp (p.position c.settings)).run world with ⟨⟨answer, next⟩, world'⟩
    cases answer with
    | error f => exact ⟨.failed, setUp_error hrun, .fail⟩
    | ok u =>
      cases p with
      | ready => exact ⟨.reached 0, setUp_ok hrun, .setUp⟩
      | reached n =>
        refine absurd ?_ hplace
        unfold Progress.position Lifecycle.reached
        dsimp only
        split <;> rfl
      | done => exact absurd rfl hplace
      | failed => exact absurd rfl hplace
  | iterate =>
    rw [handle, run_map]
    rcases hrun : (c.iterate (p.position c.settings)).run world with ⟨⟨answer, next⟩, world'⟩
    cases answer with
    | error f => exact ⟨.failed, iterate_error hrun, .fail⟩
    | ok r =>
      cases p with
      | reached n =>
        obtain ⟨hlt, hnext, hturn, -⟩ := iterate_ok hfits hp hrun
        exact ⟨.reached (n + 1), hnext, .iterate hlt hturn⟩
      | ready => exact absurd rfl hplace
      | done => exact absurd rfl hplace
      | failed => exact absurd rfl hplace
  | tearDown =>
    rw [handle, run_map]
    rcases hrun : (c.tearDown (p.position c.settings)).run world with ⟨⟨answer, next⟩, world'⟩
    cases answer with
    | error f => exact ⟨.failed, tearDown_error hrun, .fail⟩
    | ok count =>
      cases p with
      | reached n =>
        obtain ⟨rfl, hnext⟩ := tearDown_ok hrun
        exact ⟨.done, hnext, .tearDown hp⟩
      | ready => exact absurd rfl hplace
      | done => exact absurd rfl hplace
      | failed => exact absurd rfl hplace

/-- Attending to requests makes a transcript of them. -/
theorem attend_transcript (hfits : c.settings.total ≤ Whole.max32) (requests : List Request) :
    ∀ {p : Progress}, p.Within c.settings →
      Always (c.attend (p.position c.settings) requests) fun entries =>
        entries.map Entry.request = requests ∧ Transcript c.settings p entries := by
  induction requests with
  | nil => exact fun _ => Always.pure ⟨rfl, .nil⟩
  | cons request rest ih =>
    intro p hp
    refine Always.bind (handle_moves hfits hp request) fun a ha => ?_
    obtain ⟨answer, after⟩ := a
    obtain ⟨p', hafter, hmoves⟩ := ha
    -- the trial is again where one is that has come so far, whatever the answer was
    obtain rfl : after = p'.position c.settings := hafter
    refine Always.bind (ih hmoves.within) fun entries hentries => ?_
    obtain ⟨hrequests, htranscript⟩ := hentries
    refine Always.pure ⟨?_, .cons hmoves htranscript⟩
    rw [List.map_cons, hrequests]

end Conductor

/-! ### What a transcript shows -/

namespace Transcript

variable {s : Settings} {p : Progress} {entries : List Entry}

/-- Once a trial is over, nothing goes well. -/
theorem closed (h : Transcript s p entries) (hp : p = .done ∨ p = .failed) :
    ∀ e ∈ entries, e.answer.isOk = false := by
  induction h with
  | nil => exact fun _ hmem => nomatch hmem
  | cons moves rest ih =>
    cases moves with
    | fail => exact List.forall_mem_cons.2 ⟨rfl, ih (.inr rfl)⟩
    | setUp => rcases hp with hp | hp <;> cases hp
    | iterate _ _ => rcases hp with hp | hp <;> cases hp
    | tearDown _ => rcases hp with hp | hp <;> cases hp

/-- What is reported are the iterations ahead, in their order. -/
theorem places (h : Transcript s p entries) : Entry.places entries <+: p.ahead s := by
  induction h with
  | nil => exact List.nil_prefix
  | cons moves rest ih =>
    cases moves with
    | setUp => exact ih
    | iterate left turn =>
      rw [Progress.ahead, Settings.drop_schedule left, ← turn]
      exact List.cons_prefix_cons.2 ⟨rfl, ih⟩
    | tearDown _ => exact (List.prefix_nil.1 ih).symm ▸ List.nil_prefix
    | fail => exact (List.prefix_nil.1 ih).symm ▸ List.nil_prefix

/-- A trial that has begun is not set up again. -/
theorem not_setUp (h : Transcript s p entries) (hp : p ≠ .ready) :
    ∀ e ∈ entries, e.request = .setUp → e.answer.isOk = false := by
  induction h with
  | nil => exact fun _ hmem => nomatch hmem
  | cons moves rest ih =>
    cases moves with
    | setUp => exact absurd rfl hp
    | iterate _ _ => exact List.forall_mem_cons.2 ⟨nofun, ih nofun⟩
    | tearDown _ => exact List.forall_mem_cons.2 ⟨nofun, ih nofun⟩
    | fail => exact List.forall_mem_cons.2 ⟨fun _ => rfl, ih nofun⟩

/-- Setup goes well only as the first request. -/
theorem setUp_first (h : Transcript s p entries) {former latter : List Entry} {e : Entry}
    (hsplit : entries = former ++ e :: latter) (hrequest : e.request = .setUp)
    (hok : e.answer.isOk = true) : former = [] := by
  cases former with
  | nil => rfl
  | cons first former =>
    cases h with
    | nil => cases hsplit
    | cons moves rest =>
      obtain ⟨-, rfl⟩ := List.cons.inj hsplit
      have hmem : e ∈ former ++ e :: latter := by simp
      -- nothing leads back to where a trial begins
      have hbegun : ∀ {p' : Progress} {request : Request} {answer : Except Failure Grant},
          p.Moves s request answer p' → p' ≠ .ready := by
        intro p' request answer hmoves
        cases hmoves <;> nofun
      rw [rest.not_setUp (hbegun moves) e hmem hrequest] at hok
      cases hok

/-- After teardown nothing goes well. -/
theorem tearDown_last (h : Transcript s p entries) :
    entries.Pairwise fun e e' =>
      e.request = .tearDown → e.answer.isOk = true → e'.answer.isOk = false := by
  induction h with
  | nil => exact .nil
  | cons moves rest ih =>
    refine List.pairwise_cons.2 ⟨?_, ih⟩
    intro e' hmem hrequest hok
    cases moves with
    | tearDown _ => exact rest.closed (.inl rfl) e' hmem
    | setUp => cases hrequest
    | iterate _ _ => cases hrequest
    | fail => cases hok

/-- Teardown answers with the number of iterations that have been run. -/
theorem count_eq (hfits : s.total ≤ Whole.max32) (h : Transcript s p entries) :
    ∀ {former latter : List Entry} {e : Entry} {n : UInt32},
      entries = former ++ e :: latter → e.answer = .ok (.finished n) →
        n.toNat = p.count + (Entry.places former).length := by
  have hmax : Whole.max32 = 4294967295 := rfl
  induction h with
  | nil => exact fun hsplit => absurd hsplit (by simp)
  | cons moves rest ih =>
    intro former latter e n hsplit hanswer
    cases former with
    | nil =>
      obtain ⟨rfl, -⟩ := List.cons.inj hsplit
      cases moves with
      | setUp => cases hanswer
      | iterate _ _ => cases hanswer
      | fail => cases hanswer
      | tearDown within =>
        cases hanswer
        rw [UInt32.toNat_ofNat', Progress.count, Entry.places, List.filterMap_nil, List.length_nil]
        omega
    | cons first former =>
      obtain ⟨rfl, rfl⟩ := List.cons.inj hsplit
      have hrest := ih rfl hanswer
      cases moves with
      | setUp => exact hrest
      | iterate left turn =>
        rw [hrest]
        simp only [Progress.count, Entry.places, Entry.place?, List.filterMap_cons,
          List.length_cons]
        omega
      | tearDown within =>
        -- there is no second teardown
        have hnot := rest.closed (.inl rfl) e (by simp)
        rw [hanswer] at hnot
        cases hnot
      | fail =>
        have hnot := rest.closed (.inr rfl) e (by simp)
        rw [hanswer] at hnot
        cases hnot

theorem after_eq (h : Transcript s p entries) :
    ∀ e ∈ entries, e.answer.isOk = false → e.after = .failed := by
  induction h with
  | nil => exact fun _ hmem => nomatch hmem
  | cons moves rest ih =>
    refine List.forall_mem_cons.2 ⟨?_, ih⟩
    intro hfailed
    cases moves with
    | fail => rfl
    | setUp => cases hfailed
    | iterate _ _ => cases hfailed
    | tearDown _ => cases hfailed

end Transcript

/-- What holds of the entries of a trial, whatever was asked. -/
structure Orderly (s : Settings) (entries : List Entry) : Prop where
  /-- The iterations that are reported are the first ones of the schedule, in its order. -/
  reported : Entry.places entries <+: s.schedule
  /-- Setup goes well only as the first request. -/
  setUp_first : ∀ former e latter, entries = former ++ e :: latter → e.request = .setUp →
    e.answer.isOk = true → former = []
  /-- Nothing goes well after a teardown that went well. -/
  tearDown_last : entries.Pairwise fun e e' =>
    e.request = .tearDown → e.answer.isOk = true → e'.answer.isOk = false
  /-- Teardown answers with the number of iterations that have been reported before it. -/
  tearDown_count : ∀ former e latter n, entries = former ++ e :: latter →
    e.answer = .ok (.finished n) → n.toNat = (Entry.places former).length
  /-- What is out of place does not go well. -/
  misplaced : ∀ e ∈ entries, e.before.admits s e.request = false → e.answer.isOk = false
  /-- What does not go well leaves the trial failed. -/
  failed : ∀ e ∈ entries, e.answer.isOk = false → e.after = .failed

namespace Conductor

variable {σ : Type}

theorem attend_misplaced (c : Conductor (StateM σ)) (requests : List Request) :
    ∀ position : Lifecycle, Always (c.attend position requests) fun entries =>
      ∀ e ∈ entries, e.before.admits c.settings e.request = false → e.answer.isOk = false := by
  induction requests with
  | nil => exact fun _ => Always.pure fun _ hmem => nomatch hmem
  | cons request rest ih =>
    intro position
    have hfirst : Always (c.handle request position) fun a =>
        position.admits c.settings request = false → a.1.isOk = false := by
      intro world hplace
      obtain ⟨f, hf⟩ := handle_misplaced c hplace
      rw [hf]
      rfl
    refine Always.bind hfirst fun a ha => ?_
    refine Always.bind (ih a.2) fun entries hentries => ?_
    exact Always.pure (List.forall_mem_cons.2 ⟨ha, hentries⟩)

/-- **Requests in any order.**  Every request is answered.  What is reported are the first
iterations of the schedule; setup goes well only as the first request, and teardown only once, with
the number of the iterations before it; what is out of place or fails leaves the trial failed.  Once
a trial is over, for good or ill, no request runs anything. -/
theorem attend_orderly (c : Conductor (StateM σ)) (hfits : c.settings.total ≤ Whole.max32)
    (requests : List Request) (world : σ) :
    let entries := ((c.attend .ready requests).run world).1
    entries.map Entry.request = requests ∧ Orderly c.settings entries ∧
      ∀ request position, position = .done ∨ position = .failed →
        ∃ f, c.handle request position = pure (.error f, .failed) := by
  intro entries
  have hboth : entries.map Entry.request = requests ∧ Transcript c.settings .ready entries :=
    attend_transcript (p := .ready) hfits requests True.intro world
  obtain ⟨hrequests, htranscript⟩ := hboth
  refine ⟨hrequests, ?_, ?_⟩
  · exact {
      reported := htranscript.places
      setUp_first := fun _ _ _ hsplit => htranscript.setUp_first hsplit
      tearDown_last := htranscript.tearDown_last
      tearDown_count := fun _ _ _ _ hsplit hanswer =>
        (htranscript.count_eq hfits hsplit hanswer).trans (Nat.zero_add _)
      misplaced := attend_misplaced c requests .ready world
      failed := htranscript.after_eq }
  · intro request position hover
    refine handle_misplaced c ?_
    rcases hover with rfl | rfl <;> cases request <;> rfl

/-- What runs the trial of the task that does nothing. -/
def idle : Conductor (StateM Nat) where
  task := ⟨.none, fun _ => pure {}⟩
  settings := .idle
  host := .ticking

/-- The trial of the task that does nothing, which is torn down too early and asked for more. -/
theorem attend_orderly_idle :
    Settings.idle.total ≤ Whole.max32 ∧
      let entries := ((idle.attend .ready [.setUp, .iterate, .tearDown, .iterate, .setUp]).run 0).1
      entries.map Entry.request = [.setUp, .iterate, .tearDown, .iterate, .setUp] ∧
        Orderly .idle entries ∧
        ∀ request position, position = .done ∨ position = .failed →
          ∃ f, idle.handle request position = pure (.error f, .failed) := by
  have hfits : Settings.idle.total ≤ Whole.max32 := by decide
  exact ⟨hfits, attend_orderly idle hfits _ 0⟩

end Conductor

end Microbench
