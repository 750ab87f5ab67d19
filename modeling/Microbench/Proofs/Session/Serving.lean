import Microbench.Proofs.Engine.Harvest
import Microbench.Proofs.Spec.RoundTrip
import Microbench.Proofs.Wire.Stream

/-!
# One line after the other

A session hears a line, writes what it has to, and goes on with the rest of the
stream.  A line that is too large is never written: the first one ends the session.

## Main definitions

* `Session.sent` — what becomes of lines that are to be written.
* `Session.after` — lines that are written before all others of a session.

## Main results

* `write_ended`, `write_of_fits`, `write_of_large` — writing lines that do not break.
* `run_serveLines_waiting`, `run_serveLines_serving` — a session hears one line and goes on.
* `run_hear_setUp`, `run_hear_iterated`, … — what a line leads to, case by case.
-/

namespace Microbench

/-- The line of a specification only has to be small enough. -/
theorem Spec.fits_encode (s : Spec) (h : s.encode.utf8ByteSize ≤ Line.maxSize) :
    Line.Fits s.encode := by
  refine ⟨hasBreak_eq_false.2 fun c hc => ⟨?_, ?_⟩, h⟩
  · rintro rfl
    exact Spec.not_break_mem_encode s (.inl rfl) hc
  · rintro rfl
    exact Spec.not_break_mem_encode s (.inr rfl) hc

/-- The line that shows a report in the unit of the trial does not break. -/
theorem Conductor.InUnit.unbroken {m : Type → Type} {c : Conductor m} {r : Report}
    (h : c.InUnit r.result) {task : String} (htask : Line.hasBreak task = false) :
    Line.hasBreak (progressLine task r) = false := by
  refine hasBreak_progressLine htask fun metric hmetric => ?_
  rw [h metric hmetric]
  exact TimeUnit.hasBreak_scoreUnit _ _

/-- A character takes four bytes at most. -/
theorem Spec.size_encode_le (s : Spec) :
    s.encode.utf8ByteSize ≤ 4 * (joined .field s.fields).length := by
  rw [encode]
  induction joined .field s.fields with
  | nil => exact Nat.le_refl _
  | cons c cs ih =>
    have hc := c.utf8Size_le_four
    rw [String.ofList_cons, String.utf8ByteSize_append, String.utf8ByteSize_singleton,
      List.length_cons]
    omega

theorem Spec.fits_encode_idle : Line.Fits Spec.idle.encode :=
  Spec.idle.fits_encode (Nat.le_trans Spec.idle.size_encode_le (by decide +kernel))

namespace Session

/-! ### Writing -/

section Writing

variable {m : Type → Type}

/-- Lines are written up to the first that is too large, which ends the session. -/
def sent (result : Except WorkerError Unit) :
    List String → List String × Except WorkerError Unit
  | [] => ([], result)
  | line :: rest =>
    if Line.maxSize < line.utf8ByteSize then ([], .error (.line .tooLarge))
    else (line :: (sent result rest).1, (sent result rest).2)

/-- Lines that end a session. -/
theorem write_ended {result : Except WorkerError Unit} {lines : List String}
    (h : ∀ line ∈ lines, Line.hasBreak line = false) :
    write (m := m) (.ended result) lines =
      ((sent result lines).1, .ended (sent result lines).2) := by
  induction lines with
  | nil => rfl
  | cons line rest ih =>
    obtain ⟨hline, hrest⟩ := List.forall_mem_cons.1 h
    rw [write, sent, Line.check_of_unbroken hline]
    by_cases hlarge : Line.maxSize < line.utf8ByteSize
    · rw [if_pos hlarge, if_pos hlarge]
    · rw [if_neg hlarge, if_neg hlarge, ih hrest]

/-- Lines that all fit. -/
theorem write_of_fits {next : Session m} {lines : List String}
    (h : ∀ line ∈ lines, Line.Fits line) : write next lines = (lines, next) := by
  induction lines with
  | nil => rfl
  | cons line rest ih =>
    obtain ⟨hline, hrest⟩ := List.forall_mem_cons.1 h
    rw [write, Line.check_of_fits hline, ih hrest]

/-- Lines of which one is too large. -/
theorem write_of_large (next : Session m) {lines : List String}
    (h : ∀ line ∈ lines, Line.hasBreak line = false)
    (hlarge : ∃ line ∈ lines, Line.maxSize < line.utf8ByteSize) (result : Except WorkerError Unit) :
    write next lines = ((sent result lines).1, .ended (.error (.line .tooLarge))) ∧
      (sent result lines).2 = .error (.line .tooLarge) := by
  induction lines with
  | nil => simp at hlarge
  | cons line rest ih =>
    obtain ⟨hline, hrest⟩ := List.forall_mem_cons.1 h
    rw [write, sent, Line.check_of_unbroken hline]
    by_cases hthis : Line.maxSize < line.utf8ByteSize
    · rw [if_pos hthis, if_pos hthis]
      exact ⟨rfl, rfl⟩
    · have hlater : ∃ line ∈ rest, Line.maxSize < line.utf8ByteSize := by
        obtain ⟨l, hl, hsize⟩ := hlarge
        rcases List.mem_cons.1 hl with rfl | hmem
        · exact absurd hsize hthis
        · exact ⟨l, hmem, hsize⟩
      obtain ⟨hwrite, hresult⟩ := ih hrest hlater
      rw [if_neg hthis, if_neg hthis, hwrite]
      exact ⟨rfl, hresult⟩

/-- Lines that fit are sent, and then the others. -/
theorem sent_append {result : Except WorkerError Unit} {first : List String}
    (h : ∀ line ∈ first, line.utf8ByteSize ≤ Line.maxSize) (rest : List String) :
    sent result (first ++ rest) = (first ++ (sent result rest).1, (sent result rest).2) := by
  induction first with
  | nil => rfl
  | cons line first ih =>
    obtain ⟨hline, hfirst⟩ := List.forall_mem_cons.1 h
    rw [List.cons_append, sent, if_neg (Nat.not_lt.2 hline), ih hfirst]
    rfl

end Writing

/-! ### Hearing one line after the other -/

section Hearing

variable {σ : Type} {w : Workshop (StateM σ)} {world world₁ world₂ : σ}

/-- What comes of a session: what it writes, how it ends, and the world afterwards. -/
abbrev Outcome (σ : Type) := (List String × Except WorkerError Unit) × σ

/-- Lines that are written before all others of a session. -/
def before (lines : List String) (o : Outcome σ) : Outcome σ := ((lines ++ o.1.1, o.1.2), o.2)

theorem before_before (a b : List String) (o : Outcome σ) :
    before a (before b o) = before (a ++ b) o := by
  simp only [before, List.append_assoc]

theorem run_serveLines_ended (n : Nat) (result : Except WorkerError Unit) (source : ByteSource) :
    (serveLines w n (.ended result) source).run world = (([], result), world) := by
  cases n <;> rfl

theorem run_serveLines_waiting {n : Nat} {source : ByteSource} {written : List String}
    {next : Session (StateM σ)}
    (h : (hear w .waiting source.readLine.1).run world = ((written, next), world₁)) :
    (serveLines w (n + 1) .waiting source).run world =
      before written ((serveLines w n next source.readLine.2).run world₁) := by
  have hrun : (serveLines w (n + 1) .waiting source).run world =
      before ((hear w .waiting source.readLine.1).run world).1.1
        ((serveLines w n ((hear w .waiting source.readLine.1).run world).1.2
          source.readLine.2).run ((hear w .waiting source.readLine.1).run world).2) := rfl
  rw [hrun, h]

theorem run_serveLines_serving {n : Nat} {c : Conductor (StateM σ)} {position : Lifecycle}
    {source : ByteSource} {written : List String} {next : Session (StateM σ)}
    (h : (hear w (.serving c position) source.readLine.1).run world = ((written, next), world₁)) :
    (serveLines w (n + 1) (.serving c position) source).run world =
      before written ((serveLines w n next source.readLine.2).run world₁) := by
  have hrun : (serveLines w (n + 1) (.serving c position) source).run world =
      before ((hear w (.serving c position) source.readLine.1).run world).1.1
        ((serveLines w n ((hear w (.serving c position) source.readLine.1).run world).1.2
          source.readLine.2).run
          ((hear w (.serving c position) source.readLine.1).run world).2) := rfl
  rw [hrun, h]

/-! ### The first line -/

variable {s : Spec} {l : String} {f : Failure} {c : Conductor (StateM σ)} {position : Lifecycle}

/-- The greeting of a worker. -/
def greeting {m : Type → Type} (w : Workshop m) (s : Spec) : String :=
  (Message.hello protocolVersion w.pid s.name).line

theorem run_hear_unread (e : Line.Error) :
    (hear w .waiting (.error e)).run world = (([], .ended (.error (.line e))), world) := rfl

theorem run_hear_undecoded {e : Spec.DecodeError} (hspec : Spec.decode l = .error e) :
    (hear w .waiting (.ok l)).run world = (([], .ended (.error (.spec e))), world) := by
  rw [hear, greet, hspec]
  rfl

theorem run_hear_ungreeted (hspec : Spec.decode l = .ok s)
    (hlarge : Line.maxSize < (greeting w s).utf8ByteSize) :
    (hear w .waiting (.ok l)).run world =
      (([], .ended (.error (.line .tooLarge))), world) := by
  have hwrite : write (m := StateM σ) .waiting [greeting w s] =
      ([], .ended (.error (.line .tooLarge))) := by
    rw [write, Line.check_of_unbroken (s := greeting w s) (Message.hasBreak_line _),
      if_pos hlarge]
  rw [hear, greet, hspec]
  dsimp only
  rw [← greeting, hwrite]
  rfl

theorem write_greeting (hsmall : (greeting w s).utf8ByteSize ≤ Line.maxSize) :
    write (m := StateM σ) .waiting [greeting w s] = ([greeting w s], .waiting) :=
  write_of_fits (List.forall_mem_singleton.2 ⟨Message.hasBreak_line _, hsmall⟩)

theorem run_andThen_waiting (lines : List String) (second : StateM σ (Reaction (StateM σ))) :
    (andThen (lines, .waiting) second).run world =
      ((lines ++ (second.run world).1.1, (second.run world).1.2), (second.run world).2) := rfl

/-- The trial cannot be prepared. -/
theorem run_hear_unprepared (hspec : Spec.decode l = .ok s)
    (hsmall : (greeting w s).utf8ByteSize ≤ Line.maxSize)
    (hprepared : (Conductor.ofRegistry w.host w.registry s w.probes).run.run world =
      (.error (.error f), world₁)) :
    (hear w .waiting (.ok l)).run world =
      ((greeting w s :: (fail (m := StateM σ) f).1, (fail f).2), world₁) := by
  rw [hear, greet, hspec]
  dsimp only
  rw [← greeting, write_greeting hsmall, run_andThen_waiting, run_bind, hprepared]
  rfl

/-- Preparing the trial breaks off. -/
theorem run_hear_brokenOff (hspec : Spec.decode l = .ok s)
    (hsmall : (greeting w s).utf8ByteSize ≤ Line.maxSize) {b : Breakdown}
    (hprepared : (Conductor.ofRegistry w.host w.registry s w.probes).run.run world =
      (.error (.breakdown b), world₁)) :
    (hear w .waiting (.ok l)).run world =
      (([greeting w s], .ended (.error (.breakdown b))), world₁) := by
  rw [hear, greet, hspec]
  dsimp only
  rw [← greeting, write_greeting hsmall, run_andThen_waiting, run_bind, hprepared]
  rfl

/-- The trial cannot be set up. -/
theorem run_hear_notSetUp (hspec : Spec.decode l = .ok s)
    (hsmall : (greeting w s).utf8ByteSize ≤ Line.maxSize)
    (hprepared : (Conductor.ofRegistry w.host w.registry s w.probes).run.run world =
      (.ok c, world₁))
    (hsetUp : (c.setUp .ready).run world₁ = ((.error f, position), world₂)) :
    (hear w .waiting (.ok l)).run world =
      ((greeting w s :: (fail (m := StateM σ) f).1, (fail f).2), world₂) := by
  rw [hear, greet, hspec]
  dsimp only
  rw [← greeting, write_greeting hsmall, run_andThen_waiting, run_bind, hprepared]
  dsimp only
  rw [run_bind, hsetUp]
  rfl

/-- The trial is set up. -/
theorem run_hear_setUp (hspec : Spec.decode l = .ok s)
    (hsmall : (greeting w s).utf8ByteSize ≤ Line.maxSize)
    (hprepared : (Conductor.ofRegistry w.host w.registry s w.probes).run.run world =
      (.ok c, world₁))
    (hsetUp : (c.setUp .ready).run world₁ = ((.ok (), position), world₂)) :
    (hear w .waiting (.ok l)).run world = (([greeting w s], .serving c position), world₂) := by
  rw [hear, greet, hspec]
  dsimp only
  rw [← greeting, write_greeting hsmall, run_andThen_waiting, run_bind, hprepared]
  dsimp only
  rw [run_bind, hsetUp]
  rfl

/-! ### Commands -/

theorem parse_line (c : Command) : Command.parse c.line = .ok c := by
  have htrimmed : Text.trimmed c.line = c.line := by cases c <;> decide +kernel
  rw [Command.parse, htrimmed]
  cases c <;> rfl

theorem run_hear_unheard (e : Line.Error) :
    (hear w (.serving c position) (.error e)).run world =
      (([], .ended (.error (.line e))), world) := rfl

theorem run_hear_unknown {e : UnknownCommand} (h : Command.parse l = .error e) :
    (hear w (.serving c position) (.ok l)).run world =
      (([], .ended (.error (.command e))), world) := by
  rw [hear, command, h]
  rfl

variable {next : Lifecycle}

/-- An iteration is run and reported. -/
theorem run_hear_iterated (h : Command.parse l = .ok .iterate) {r : Report}
    (hran : (c.iterate position).run world = ((.ok r, next), world₁)) :
    (hear w (.serving c position) (.ok l)).run world =
      (write (.serving c next) [progressLine c.settings.task r, (Message.iteration r).line],
        world₁) := by
  rw [hear, command, h]
  dsimp only
  rw [run_bind, hran]
  rfl

/-- An iteration fails. -/
theorem run_hear_notIterated (h : Command.parse l = .ok .iterate)
    (hran : (c.iterate position).run world = ((.error f, next), world₁)) :
    (hear w (.serving c position) (.ok l)).run world = (fail f, world₁) := by
  rw [hear, command, h]
  dsimp only
  rw [run_bind, hran]
  rfl

/-- The trial is torn down. -/
theorem run_hear_tornDown (h : Command.parse l = .ok .terminate) {n : UInt32}
    (hran : (c.tearDown position).run world = ((.ok n, next), world₁)) :
    (hear w (.serving c position) (.ok l)).run world =
      (write (.ended (.ok ())) [(Message.complete n).line], world₁) := by
  rw [hear, command, h]
  dsimp only
  rw [run_bind, hran]
  rfl

/-- The trial cannot be torn down. -/
theorem run_hear_notTornDown (h : Command.parse l = .ok .terminate)
    (hran : (c.tearDown position).run world = ((.error f, next), world₁)) :
    (hear w (.serving c position) (.ok l)).run world = (fail f, world₁) := by
  rw [hear, command, h]
  dsimp only
  rw [run_bind, hran]
  rfl

end Hearing

end Session

end Microbench
