import Microbench.Proofs.Engine.Lanes
import Microbench.Proofs.Engine.Reporting
import Microbench.Proofs.Session.Serving
import Microbench.Proofs.Wire.Size

/-!
# Reports that cannot be sent

A worker answers the command to run an iteration with a report of it, if the report is
small enough for a line.  Measured times are thinned out before they are reported, but
values that the task reports are all kept, so how large a report becomes depends on how
often the task is invoked.  Where it is too large the iteration has gone well and is not
answered, neither with a report nor with a failure: the session just ends.

## Main definitions

* `Session.Unanswered` — a reaction without any message, after which the session is over.
* `Session.BySize` — what the report of an iteration leads to.
* `Task.steady`, `Spec.crowded` — a task that reports, and a trial with many invocations of it.

## Main results

* `Conductor.report_of_iterate` — an iteration that goes well is one that has been reported.
* `Session.hear_iterate_bySize` — **an iteration is answered if its report fits a line.**
-/

namespace Microbench

variable {σ : Type}

/-- What a session writes holds no message, and the session ends because of a line. -/
def Session.Unanswered {m : Type → Type} (reaction : Session.Reaction m) : Prop :=
  (∃ e, reaction.2 = .ended (.error (.line e))) ∧
    ∀ line ∈ reaction.1, Frame.ofLine line = some (.log line)

/-- The samples of the primary metric are among all samples. -/
theorem IterationResult.primaryCount_le {α : Type} (r : IterationResult α) :
    r.primaryCount ≤ r.sampleCount := by
  rw [sampleCount, metrics, List.flatMap_append, List.length_append]
  exact Nat.le_add_right _ _

namespace Conductor

variable {c : Conductor (StateM σ)}

/-- An iteration that goes well is one that has been reported, wherever the trial was. -/
theorem report_of_iterate {position next : Lifecycle} {r : Report} {world world₁ : σ}
    (h : (c.iterate position).run world = ((.ok r, next), world₁)) :
    (c.report r.phase r.index).run.run world = (.ok r, world₁) := by
  unfold iterate at h
  dsimp only at h
  split at h
  · next phase index _ =>
    obtain ⟨-, hrun⟩ := conclude_ok h
    obtain ⟨hplace, -⟩ := report_ok world r (congrArg Prod.fst hrun)
    obtain ⟨rfl, rfl⟩ := Prod.mk.inj hplace
    exact hrun
  · cases h

end Conductor

namespace Session

variable {c : Conductor (StateM σ)} {next : Lifecycle} {r : Report}

/-- What the report of an iteration leads to. -/
structure BySize (c : Conductor (StateM σ)) (next : Lifecycle) (r : Report)
    (reaction : Reaction (StateM σ)) : Prop where
  /-- Where both lines fit they are written and the session goes on. -/
  answered : Line.Fits (progressLine c.settings.task r) →
    (Message.iteration r).line.utf8ByteSize ≤ Line.maxSize →
    reaction = ([progressLine c.settings.task r, (Message.iteration r).line], .serving c next)
  /-- A report that is too large is not written, and nothing is in its place. -/
  unanswered : Line.maxSize < (Message.iteration r).line.utf8ByteSize → Unanswered reaction
  /-- A report has four bytes for every sample. -/
  size : 4 * r.result.sampleCount ≤ (Message.iteration r).line.utf8ByteSize
  /-- Of a task that reports there is a sample for every invocation of every thread. -/
  counted : ∀ n : UInt64, c.task.Reports → 0 < n.toNat →
    (c.settings.phase r.phase).length = .invocations n →
    r.result.primaryCount = n.toNat * (c.activeSeats r.index).length
  /-- So with too many invocations no iteration is ever answered. -/
  tooMany : ∀ n : UInt64, c.task.Reports →
    (c.settings.phase r.phase).length = .invocations n →
    Line.maxSize < 4 * (n.toNat * (c.activeSeats r.index).length) → Unanswered reaction

/-- A report that is too large ends the session; the line that shows it may come before. -/
theorem write_of_tooLarge (hlarge : Line.maxSize < (Message.iteration r).line.utf8ByteSize) :
    Unanswered (write (.serving c next)
      [progressLine c.settings.task r, (Message.iteration r).line]) := by
  have hreport : Line.check (Message.iteration r).line = .error .tooLarge := by
    rw [Line.check_of_unbroken (Message.hasBreak_line _), if_pos hlarge]
  rw [write, write, hreport]
  cases Line.check (progressLine c.settings.task r) with
  | error e => exact ⟨⟨e, rfl⟩, by simp⟩
  | ok _ =>
    refine ⟨⟨.tooLarge, rfl⟩, fun line hline => ?_⟩
    obtain rfl := List.mem_singleton.1 hline
    exact Frame.ofLine_progress _ _

/-- **An iteration is answered if its report fits a line.**  Nothing keeps reports that small:
where a task reports a value in each of many invocations the iteration goes well and the session
ends without an answer. -/
theorem hear_iterate_bySize {w : Workshop (StateM σ)} {position : Lifecycle} {l : String}
    {world world₁ : σ} (hl : Command.parse l = .ok .iterate)
    (hran : (c.iterate position).run world = ((.ok r, next), world₁)) :
    ∃ reaction, (hear w (.serving c position) (.ok l)).run world = (reaction, world₁) ∧
      BySize c next r reaction := by
  have hsize := Message.size_iteration r
  have hcounted (n : UInt64) (hreports : c.task.Reports) (hn : 0 < n.toNat)
      (hlength : (c.settings.phase r.phase).length = .invocations n) :
      r.result.primaryCount = n.toNat * (c.activeSeats r.index).length :=
    Conductor.report_counted hreports hlength hn world r
      (congrArg Prod.fst (Conductor.report_of_iterate hran))
  refine ⟨_, run_hear_iterated hl hran, ?_, write_of_tooLarge, hsize, hcounted, ?_⟩
  · intro hprogress hsmall
    refine write_of_fits fun line hline => ?_
    rcases List.mem_cons.1 hline with rfl | hline
    · exact hprogress
    · obtain rfl := List.mem_singleton.1 hline
      exact ⟨Message.hasBreak_line _, hsmall⟩
  · -- there are too many samples for a line
    intro n hreports hlength hmany
    have hn : 0 < n.toNat := by
      refine Nat.pos_of_ne_zero fun hzero => ?_
      rw [hzero] at hmany
      omega
    have hprimary := r.result.primaryCount_le
    rw [hcounted n hreports hn hlength] at hprimary
    exact write_of_tooLarge (by omega)

end Session

/-! ### A trial with too many invocations -/

/-- What the task replies that reports one in every invocation. -/
def Reply.one : Reply := { outcome := .reported 1.0 }

/-- The task that reports one in every invocation. -/
def TaskEntry.steady : TaskEntry (StateM Nat) where
  declaration := ⟨"steady", .averageTime, [], []⟩
  create _ := pure ⟨.none, fun _ => pure .one⟩

/-- A trial of it with one iteration, which has one more invocation than there can be samples in a
line. -/
def Spec.crowded : Spec where
  name := "steady"
  mode := .averageTime
  warmup := { iterations := some 0 }
  measurement := { iterations := some 1, batch := some 4194305 }

/-- What such a trial is run with. -/
def Settings.crowded : Settings :=
  { Settings.idle with
    task := "steady"
    warmup := ⟨.warmup, 0, .time defaultTime⟩
    measurement := ⟨.measurement, 1, .invocations 4194305⟩
    forks := defaultForks }

/-- Such a trial when it has been prepared. -/
def Conductor.crowded : Conductor (StateM Nat) where
  task := ⟨.none, fun _ => pure .one⟩
  settings := .crowded
  host := .ticking

namespace Conductor

theorem isFinite_one : Reply.one.outcome.isFinite = true := by decide +kernel

theorem succeeds_invokeTimes (seat : Seat) (n : Nat) (w : Work) :
    Succeeds (crowded.invokeTimes seat n w) := by
  induction n generalizing w with
  | zero => exact .pure
  | succ n ih =>
    obtain ⟨w', hw'⟩ := Bench.accept_of_finite crowded.toBench seat w isFinite_one
    have hcall : crowded.call .invocation (some seat.index) (.invoke seat) = pure .one := rfl
    rw [Bench.invokeTimes, hcall, pure_bind, hw', pure_bind]
    exact ih w'

theorem succeeds_batch (seat : Seat) (n : Nat) (w : Work) :
    Succeeds (crowded.batch seat n w) := by
  have hplain : ¬ crowded.isBracketed = true := by decide
  rw [Bench.batch, if_neg hplain]
  refine Succeeds.bind .lift fun start => ?_
  refine Succeeds.bind (succeeds_invokeTimes seat n w) fun w' => ?_
  exact Succeeds.bind .lift fun stop => .pure

theorem succeeds_alone (n : UInt64) (seat : Seat) :
    Succeeds (Lane.alone crowded.toBench n seat) := by
  have hfixture (stage : Stage) : crowded.threadFixture seat stage = pure () := rfl
  unfold Lane.alone
  rw [hfixture, hfixture]
  refine Succeeds.bind .pure fun _ => ?_
  refine Succeeds.bind (succeeds_batch seat n.toNat _) fun work => ?_
  exact Succeeds.bind .pure fun _ => .pure

theorem succeeds_report : Succeeds (crowded.report .measurement 0) := by
  have halone : crowded.activeSeats 0 = [⟨0, 1, 0, Settings.implicitGroup, 0, 1⟩] := rfl
  have hlength : (crowded.settings.phase .measurement).length = .invocations 4194305 := rfl
  have hfixtures (stage : Stage) : crowded.fixtures .iteration stage = pure () := by
    cases stage <;> rfl
  unfold report
  dsimp only
  rw [hlength]
  refine Succeeds.bind .lift fun noted => Succeeds.bind ?_ fun result => ?_
  · unfold runIteration
    rw [halone, Round.run_singleton (by decide), hfixtures, hfixtures]
    refine Succeeds.bind .pure fun _ => ?_
    refine Succeeds.bind ((succeeds_alone _ _).bind fun _ => .pure) fun harvests => ?_
    exact Succeeds.bind .pure fun _ => .pure
  · exact Succeeds.bind .lift fun found => .pure

theorem iterate_crowded : ∃ r world₁,
    (crowded.iterate (.warmup 0)).run 0 = ((.ok r, .measurement 1), world₁) ∧
      r.phase = .measurement ∧ r.index = 0 := by
  obtain ⟨r, hr⟩ := succeeds_report 0
  obtain ⟨hphase, hindex⟩ := Prod.mk.inj (report_ok 0 r hr).1
  rcases hrun : (crowded.report .measurement 0).run.run 0 with ⟨answer, world₁⟩
  rw [hrun] at hr
  obtain rfl : answer = .ok r := hr
  have hbegin : crowded.iterate (.warmup 0) =
      conclude (.measurement 1) (crowded.report .measurement 0) := rfl
  exact ⟨r, world₁, hbegin ▸ conclude_of_ok hrun, hphase, hindex⟩

end Conductor

namespace Session

/-- The trial is one that is prepared from its specification, and its iteration goes well, but is
not answered. -/
theorem hear_iterate_bySize_crowded :
    let w : Workshop (StateM Nat) := { registry := .ofList [.steady], host := .ticking }
    let c := Conductor.crowded
    (Conductor.ofRegistry w.host w.registry .crowded []).run.run 0 = (.ok c, 0) ∧
      c.task.Reports ∧ Command.parse Command.iterate.line = .ok .iterate ∧
      ∃ r next world₁, (c.iterate (.warmup 0)).run 0 = ((.ok r, next), world₁) ∧
        ∃ reaction, (hear w (.serving c (.warmup 0)) (.ok Command.iterate.line)).run 0 =
          (reaction, world₁) ∧ Unanswered reaction := by
  intro w c
  have hreports : c.task.Reports := fun seat => Ensures.pure ⟨1.0, rfl⟩
  have hl := parse_line .iterate
  obtain ⟨r, world₁, hran, hphase, hindex⟩ := Conductor.iterate_crowded
  obtain ⟨reaction, hreaction, hsize⟩ := hear_iterate_bySize (w := w) hl hran
  refine ⟨rfl, hreports, hl, r, _, world₁, hran, reaction, hreaction, ?_⟩
  refine hsize.tooMany 4194305 hreports ?_ ?_
  · rw [hphase]
    rfl
  · rw [hindex]
    decide

end Session

end Microbench
