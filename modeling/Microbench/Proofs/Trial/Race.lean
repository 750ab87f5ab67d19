import Microbench.Proofs.Trial.Refinement

/-!
# A worker that gets on by itself

A worker that is a process of its own does not wait until its supervisor listens.  It
reads a line when there is one, works on it, writes what it has to say line by line, and
ends; how far it has come when the supervisor turns to it is the affair of the machine.
What is in a pipe stays there, also when the writer has ended, but a line for a worker
that has ended reaches nobody, and the supervisor is told so.

The supervisor takes that for the end of the session.  A worker that cannot set its trial
up reports so without being asked and ends, and if it has ended before the supervisor asks
for the first iteration, the report is left in the pipe.

## Main definitions

* `Apart`, `Launcher.apart` — such a worker, and the launcher of such workers.
* `Workshop.Refuses` — a trial that cannot be prepared or set up.
* `Apart.HasEnded` — the worker has come to its end before the first command.

## Main results

* `Apart.run_steps_parting` — what a worker does at its end, whatever the supervisor does.
* `fork_of_refused` — **a failure before the first iteration is heard exactly if the first
  command reaches the worker before its end.**
-/

namespace Microbench

/-- A worker that gets on by itself. -/
structure Apart (m : Type → Type) extends Piped m where
  /-- What it has still to write. -/
  unwritten : List String := []
  /-- Whether it has ended. -/
  isGone : Bool := false
  /-- How many steps it takes before each of the things that the supervisor does. -/
  turns : List Nat := []

namespace Apart

variable {m : Type → Type} [Monad m]

/-- One step: write a line, or end, or read a line and work on it, or wait for one. -/
def step (p : Apart m) : m (Apart m) :=
  match p.unwritten with
  | line :: rest => return { p with outbox := p.outbox.put [line], unwritten := rest }
  | [] =>
    match p.status? with
    | some _ => return { p with isGone := true }
    | none =>
      if p.inbox.place < p.inbox.bytes.size then do
        let (input, inbox) := p.inbox.readLine
        let (written, session) ← Session.hear p.shop p.session input
        return { p with session, inbox, unwritten := written }
      else return p

/-- So many steps. -/
def steps : Nat → Apart m → m (Apart m)
  | 0, p => return p
  | n + 1, p => do steps n (← p.step)

/-- The steps before the supervisor does the next thing. -/
def getOn (p : Apart m) : m (Apart m) := steps (p.turns.headD 0) { p with turns := p.turns.tail }

/-- Wait for a message while the worker takes so many steps at most. -/
def await : Nat → Apart m → m (Heard × Apart m)
  | patience, p =>
    match p.outbox.nextMessage with
    | (.ok message, outbox) => return (.message message, { p with outbox })
    | (.error (.line .ended), outbox) =>
      if p.isGone then return (.closed p.status?, { p with outbox })
      else
        match patience with
        | 0 => return (.silence, { p with outbox })
        | patience + 1 => do await patience (← step { p with outbox })
    | (.error e, outbox) => return (.noise e, { p with outbox })

end Apart

/-- The launcher of workers that get on by themselves: these are their steps before each of the
things that the supervisor does, and so many more are waited for. -/
abbrev Launcher.apart {m : Type → Type} [Monad m] (workshop : List String → Workshop m)
    (patience : Nat) (turns : List Nat) : Launcher m where
  Worker := Apart m
  start launch := return .ok { shop := workshop launch.probes, turns }
  send p line := do
    let p ← p.getOn
    if p.isGone then return .error p.status? else return .ok { p with inbox := p.inbox.put [line] }
  receive _ p := do (← p.getOn).await patience
  finish _ p := do
    let p ← p.steps patience
    return if p.isGone then p.status?.map (·, {}) else none

namespace Apart

variable {σ : Type} {p : Apart (StateM σ)} {world : σ} {lines rest : List String} {line : String}
  {message : Message} {n : Nat} {turns : List Nat}

/-! ### At the end -/

/-- A session is over, with these lines to be written and heard; of the steps that are left to
write them and to end, so many have been taken. -/
structure Parting (p : Apart (StateM σ)) (lines : List String) (n : Nat) (turns : List Nat) :
    Prop where
  session : p.session = .ended (.ok ())
  unwritten : p.unwritten = lines.drop n
  outbox : p.outbox.Holds (lines.take n)
  isGone : p.isGone = decide (lines.length < n)
  turns : p.turns = turns

theorem run_step_parting (h : Parting p lines n turns) (world : σ) :
    ∃ p', Parting p' lines (n + 1) turns ∧ p.step.run world = (p', world) := by
  by_cases hn : n < lines.length
  · -- the next line is written
    have hdrop := List.drop_eq_getElem_cons hn
    refine ⟨{ p with outbox := p.outbox.put [lines[n]], unwritten := lines.drop (n + 1) },
      ⟨h.session, rfl, ?_, ?_, h.turns⟩, ?_⟩
    · rw [List.take_succ_eq_append_getElem hn]
      exact h.outbox.write [lines[n]]
    · rw [h.isGone]
      simp only [decide_eq_decide]
      omega
    · rw [step, h.unwritten, hdrop]
      rfl
  · have hall : lines.drop n = [] := List.drop_eq_nil_of_le (Nat.le_of_not_lt hn)
    refine ⟨{ p with isGone := true }, ⟨h.session, ?_, ?_, ?_, h.turns⟩, ?_⟩
    · rw [List.drop_eq_nil_of_le (by omega)]
      exact h.unwritten.trans hall
    · rw [List.take_of_length_le (by omega)]
      have houtbox := h.outbox
      rwa [List.take_of_length_le (Nat.le_of_not_lt hn)] at houtbox
    · simp only [true_eq_decide_iff]
      omega
    · rw [step, h.unwritten, hall]
      dsimp only [Piped.status?]
      rw [h.session]
      rfl

/-- **The end comes step by step**, whatever the supervisor does in between. -/
theorem run_steps_parting (h : Parting p lines n turns) (k : Nat) (world : σ) :
    ∃ p', Parting p' lines (n + k) turns ∧ (steps k p).run world = (p', world) := by
  induction k generalizing p n with
  | zero => exact ⟨p, h, rfl⟩
  | succ k ih =>
    obtain ⟨p₁, hp₁, hstep⟩ := run_step_parting h world
    obtain ⟨p₂, hp₂, hsteps⟩ := ih hp₁
    refine ⟨p₂, ?_, ?_⟩
    · rwa [show n + (k + 1) = n + 1 + k by omega]
    · rw [steps, run_bind, hstep]
      exact hsteps

theorem run_getOn_parting (h : Parting p lines n turns) (world : σ) :
    ∃ p', Parting p' lines (n + turns.headD 0) turns.tail ∧ p.getOn.run world = (p', world) := by
  obtain rfl : p.turns = turns := h.turns
  have hnext : Parting { p with turns := p.turns.tail } lines n p.turns.tail :=
    ⟨h.session, h.unwritten, h.outbox, h.isGone, rfl⟩
  exact run_steps_parting hnext (p.turns.headD 0) world

/-- A line that is in the pipe is heard, though the worker may have ended. -/
theorem run_await_written (h : Parting p (message.line :: rest) (n + 1) turns)
    (hmessage : message.Travels) (patience : Nat) (world : σ) :
    ∃ p', Parting p' rest n turns ∧
      (await patience p).run world = ((.message message, p'), world) := by
  have houtbox := h.outbox
  rw [List.take_succ_cons] at houtbox
  obtain ⟨hnext, hrest⟩ := hmessage.delivers (rest.take n) p.outbox houtbox
  refine ⟨{ p with outbox := p.outbox.nextMessage.2 },
    ⟨h.session, h.unwritten, hrest, ?_, h.turns⟩, ?_⟩
  · rw [h.isGone]
    simp only [List.length_cons, decide_eq_decide]
    omega
  · unfold await
    rw [← Prod.eta p.outbox.nextMessage, hnext]
    rfl

/-- The first line at the end is heard, sooner or later. -/
theorem run_await_parting (h : Parting p (message.line :: rest) n turns)
    (hmessage : message.Travels) (patience : Nat) (world : σ) :
    ∃ p', Parting p' rest (n - 1) turns ∧
      (await (patience + 1) p).run world = ((.message message, p'), world) := by
  cases n with
  | succ n => exact run_await_written h hmessage _ world
  | zero =>
    -- nothing is in the pipe, so the worker takes another step
    obtain ⟨hnext, hempty⟩ := h.outbox.nextMessage_nil
    have hthen : Parting { p with outbox := p.outbox.nextMessage.2 } (message.line :: rest) 0
        turns := ⟨h.session, h.unwritten, hempty, h.isGone, h.turns⟩
    obtain ⟨p₁, hp₁, hstep⟩ := run_step_parting hthen world
    obtain ⟨p₂, hp₂, hawait⟩ := run_await_written hp₁ hmessage patience world
    refine ⟨p₂, hp₂, ?_⟩
    have hhere : ¬ p.isGone = true := by simp [h.isGone]
    unfold await
    rw [← Prod.eta p.outbox.nextMessage, hnext]
    dsimp only
    rw [if_neg hhere, run_bind, hstep]
    exact hawait

/-! ### At the beginning -/

/-- A session has not begun, and these lines can be read. -/
structure Arriving (p : Apart (StateM σ)) (shop : Workshop (StateM σ)) (lines : List String)
    (turns : List Nat) : Prop where
  shop : p.shop = shop
  session : p.session = .waiting
  unwritten : p.unwritten = []
  inbox : p.inbox.Holds lines
  outbox : p.outbox.Holds []
  isGone : p.isGone = false
  turns : p.turns = turns

variable {shop : Workshop (StateM σ)}

theorem run_steps_arriving (h : Arriving p shop [] turns) (k : Nat) :
    (steps k p).run world = (p, world) := by
  have hempty : ¬ p.inbox.place < p.inbox.bytes.size := by
    obtain ⟨read, hbytes, hplace⟩ := h.inbox
    rw [hbytes, hplace, ByteSource.wire_nil, ByteArray.append_empty]
    exact Nat.lt_irrefl _
  have hstep : p.step.run world = (p, world) := by
    rw [step, h.unwritten]
    dsimp only [Piped.status?]
    rw [h.session]
    dsimp only
    rw [if_neg hempty]
    rfl
  induction k with
  | zero => rfl
  | succ k ih => rw [steps, run_bind, hstep, ih]

/-- The first line is read and worked on, and what is to be written after that is the end. -/
theorem run_step_arriving {world' : σ} (h : Arriving p shop [line] turns) (hline : Line.Fits line)
    (hheard : (Session.hear shop .waiting (.ok line)).run world =
      ((lines, .ended (.ok ())), world')) :
    ∃ p', Parting p' lines 0 turns ∧ p.step.run world = (p', world') := by
  obtain ⟨hread, -⟩ := h.inbox.readLine_cons hline
  have hfull : p.inbox.place < p.inbox.bytes.size := by
    obtain ⟨read, hbytes, hplace⟩ := h.inbox
    have hsize : (line ++ "\n").toUTF8.size = line.toUTF8.size + 1 := ByteArray.size_append
    rw [hbytes, hplace, ByteSource.wire_cons, ByteArray.size_append, ByteArray.size_append, hsize]
    omega
  refine ⟨{ p with
    session := .ended (.ok ())
    inbox := p.inbox.readLine.2
    unwritten := lines }, ⟨rfl, rfl, h.outbox, ?_, h.turns⟩, ?_⟩
  · rw [h.isGone]
    rfl
  · rw [step, h.unwritten]
    dsimp only [Piped.status?]
    rw [h.session]
    dsimp only
    rw [if_pos hfull, hread, h.shop, run_bind, hheard]
    rfl

/-- What the worker says to its first line is heard, however long it takes. -/
theorem run_receive_arriving {world' : σ} (h : Arriving p shop [line] turns)
    (hline : Line.Fits line) (hmessage : message.Travels)
    (hheard : (Session.hear shop .waiting (.ok line)).run world =
      ((message.line :: rest, .ended (.ok ())), world')) (patience : Nat) :
    ∃ p', Parting p' rest (turns.headD 0 - 2) turns.tail ∧
      (p.getOn >>= await (patience + 2)).run world = ((.message message, p'), world') := by
  obtain rfl : p.turns = turns := h.turns
  have hthen : Arriving { p with turns := p.turns.tail } shop [line] p.turns.tail :=
    ⟨h.shop, h.session, h.unwritten, h.inbox, h.outbox, h.isGone, rfl⟩
  cases hturn : p.turns.headD 0 with
  | succ k =>
    -- it has begun before it is waited for
    obtain ⟨p₁, hp₁, hstep⟩ := run_step_arriving hthen hline hheard
    obtain ⟨p₂, hp₂, hsteps⟩ := run_steps_parting hp₁ k world'
    obtain ⟨p₃, hp₃, hawait⟩ := run_await_parting hp₂ hmessage (patience + 1) world'
    refine ⟨p₃, ?_, ?_⟩
    · rwa [show k + 1 - 2 = 0 + k - 1 by omega]
    · rw [run_bind, getOn, hturn, steps, run_bind, hstep, hsteps]
      exact hawait
  | zero =>
    -- nothing is in the pipe, so the worker begins now
    obtain ⟨hnext, hempty⟩ := h.outbox.nextMessage_nil
    have hnow : Arriving { p with turns := p.turns.tail, outbox := p.outbox.nextMessage.2 } shop
        [line] p.turns.tail :=
      ⟨h.shop, h.session, h.unwritten, h.inbox, hempty, h.isGone, rfl⟩
    obtain ⟨p₁, hp₁, hstep⟩ := run_step_arriving hnow hline hheard
    obtain ⟨p₂, hp₂, hawait⟩ := run_await_parting hp₁ hmessage patience world'
    refine ⟨p₂, hp₂, ?_⟩
    have hhere : ¬ p.isGone = true := by simp [h.isGone]
    rw [run_bind, getOn, hturn, steps, run_pure]
    unfold await
    dsimp only
    rw [← Prod.eta p.outbox.nextMessage, hnext]
    dsimp only
    rw [if_neg hhere, run_bind, hstep]
    exact hawait

end Apart

/-! ### Trials that cannot be set up -/

/-- A trial cannot be prepared, or it cannot be set up; this is the failure. -/
def Workshop.Refuses {σ : Type} (shop : Workshop (StateM σ)) (s : Spec) (world : σ) (f : Failure)
    (world' : σ) : Prop :=
  (Conductor.ofRegistry shop.host shop.registry s shop.probes).run.run world =
      (.error (.error f), world') ∨
  ∃ c world₁ position,
    (Conductor.ofRegistry shop.host shop.registry s shop.probes).run.run world = (.ok c, world₁) ∧
    (c.setUp .ready).run world₁ = ((.error f, position), world')

/-- Such a trial is greeted and given up. -/
theorem Workshop.Refuses.run_hear {σ : Type} {shop : Workshop (StateM σ)} {s : Spec}
    {world world' : σ} {f : Failure} (h : shop.Refuses s world f world')
    (hspec : Spec.decode s.encode = .ok s)
    (hgreeting : (Message.hello protocolVersion shop.pid s.name).Travels)
    (hfailure : (Message.failure f).Travels) :
    (Session.hear shop .waiting (.ok s.encode)).run world =
      (([Session.greeting shop s, (Message.failure f).line], .ended (.ok ())), world') := by
  have hfail := Supervisor.fail_of_travels (σ := σ) hfailure
  rcases h with hprepared | ⟨c, world₁, position, hprepared, hsetUp⟩
  · rw [Session.run_hear_unprepared hspec hgreeting.small hprepared, hfail]
  · rw [Session.run_hear_notSetUp hspec hgreeting.small hprepared hsetUp, hfail]

/-- The worker comes to its end before the first command.  After its first line it takes four steps:
it reads the line, greets, reports and ends.  For the first two the supervisor waits. -/
def Apart.HasEnded (turns : List Nat) : Prop := 2 ≤ turns.getD 1 0 - 2 + turns.getD 2 0

instance : DecidablePred Apart.HasEnded := fun _ => inferInstanceAs (Decidable (_ ≤ _))

namespace Supervisor

variable {σ : Type} {workshop : List String → Workshop (StateM σ)} {patience : Nat}
  {turns : List Nat} {p : Apart (StateM σ)} {world : σ} {s : Settings} {n : Nat} {f : Failure}
  {line : String} {α : Type} {judge : Message → Except SessionError α}

/-- A line for a worker that has ended meanwhile is not sent. -/
theorem run_ask_ended {left : List String} (hp : p.Parting left n (turns.drop 2))
    (hline : Line.Fits line) (hended : left.length < n + turns.getD 2 0) :
    (ask (.apart workshop patience turns) s p line judge).run.run world =
      (.error (.process .closed), world) := by
  obtain ⟨p₁, hp₁, hgetOn⟩ := Apart.run_getOn_parting hp world
  have hgone : p₁.isGone = true := by
    rw [hp₁.isGone, decide_eq_true_iff]
    rwa [List.getD_eq_getElem?_getD, ← List.head?_drop, ← List.headD_eq_head?_getD] at hended
  have hsend : (ExceptT.lift ((Launcher.apart workshop patience turns).send p line) :
      Run (StateM σ) (Except (Option ExitStatus) (Apart (StateM σ)))).run.run world =
        (.ok (.error (some (.code 0))), world) := by
    rw [ExceptT.run_lift, run_map]
    dsimp only
    rw [run_bind, hgetOn]
    dsimp only
    rw [if_pos hgone]
    dsimp only [Piped.status?]
    rw [hp₁.session]
    rfl
  unfold ask send
  rw [Line.check_of_fits hline, bind_assoc]
  exact (run_ok_bind hsend _).trans rfl

/-- A worker that has not ended is sent the line, though it does not read it any more, and what it
has to say is heard. -/
theorem run_ask_parting (hp : p.Parting [(Message.failure f).line] n (turns.drop 2))
    (hfailure : (Message.failure f).Travels) (hline : Line.Fits line)
    (hhere : n + turns.getD 2 0 < 2) (hjudge : judge (.failure f) = .error (.reported f)) :
    (ask (.apart workshop (patience + 1) turns) s p line judge).run.run world =
      (.error (.reported f), world) := by
  obtain ⟨p₁, hp₁, hgetOn⟩ := Apart.run_getOn_parting hp world
  have hstays : ¬ p₁.isGone = true := by
    rw [hp₁.isGone, decide_eq_true_iff]
    rw [List.getD_eq_getElem?_getD, ← List.head?_drop, ← List.headD_eq_head?_getD] at hhere
    exact Nat.not_lt.2 (Nat.le_of_lt_succ hhere)
  let p₂ : Apart (StateM σ) := { p₁ with inbox := p₁.inbox.put [line] }
  have hp₂ : p₂.Parting [(Message.failure f).line] (n + (turns.drop 2).headD 0)
      (turns.drop 2).tail := ⟨hp₁.session, hp₁.unwritten, hp₁.outbox, hp₁.isGone, hp₁.turns⟩
  have hsend : (send (.apart workshop (patience + 1) turns) p line).run.run world =
      (.ok p₂, world) := by
    have hlift : (ExceptT.lift ((Launcher.apart workshop (patience + 1) turns).send p line) :
        Run (StateM σ) (Except (Option ExitStatus) (Apart (StateM σ)))).run.run world =
          (.ok (.ok p₂), world) := by
      rw [ExceptT.run_lift, run_map]
      dsimp only
      rw [run_bind, hgetOn]
      dsimp only
      rw [if_neg hstays]
      rfl
    unfold send
    rw [Line.check_of_fits hline]
    exact (run_ok_bind hlift _).trans rfl
  obtain ⟨p₃, hp₃, hgetOn'⟩ := Apart.run_getOn_parting hp₂ world
  obtain ⟨p₄, -, hawait⟩ := Apart.run_await_parting hp₃ hfailure patience world
  have hreceive : (receive (.apart workshop (patience + 1) turns) s.timeout p₂).run.run world =
      (.ok (.failure f, p₄), world) := by
    have hlift : (ExceptT.lift
        ((Launcher.apart workshop (patience + 1) turns).receive s.timeout p₂) :
        Run (StateM σ) (Heard × Apart (StateM σ))).run.run world =
          (.ok (.message (.failure f), p₄), world) := by
      rw [ExceptT.run_lift, run_map]
      dsimp only
      rw [run_bind, hgetOn', hawait]
    unfold receive
    exact (run_ok_bind hlift _).trans rfl
  unfold ask
  rw [run_ok_bind hsend, run_ok_bind hreceive]
  dsimp only
  rw [hjudge]
  rfl

end Supervisor

namespace Supervisor

variable {σ : Type} {shop : Workshop (StateM σ)} {s : Spec} {world world' : σ} {f : Failure}
  {probes : List String}

/-- **A session with a worker that cannot set its trial up**: the failure is heard, unless the
worker has come to its end before the first command. -/
theorem run_apart_refused (workshop : List String → Workshop (StateM σ)) (settings : Settings)
    (index : UInt32) (program : String) (args : List String) (patience : Nat) (turns : List Nat)
    (hshop : workshop probes = shop)
    (hrefused : shop.Refuses s world f world') (hspec : Spec.decode s.encode = .ok s)
    (hsent : Line.Fits s.encode)
    (hgreeting : (Message.hello protocolVersion shop.pid s.name).Travels)
    (hfailure : (Message.failure f).Travels) :
    (run (.apart workshop (patience + 2) turns) (program :: args) probes s settings
      index).run.run world =
        (.error (if Apart.HasEnded turns then .process .closed else .reported f), world') := by
  let l := Launcher.apart workshop (patience + 2) turns
  let p₀ : Apart (StateM σ) := { shop := workshop probes, turns }
  have hstart : (start l (program :: args) probes).run.run world = (.ok p₀, world) := rfl
  -- the line is written before the worker has read anything
  have hp₀ : Apart.Arriving { p₀ with turns := turns.tail } shop [] turns.tail :=
    ⟨hshop, rfl, rfl, ByteSource.holds_wire [], ByteSource.holds_wire [], rfl, rfl⟩
  have hgetOn : p₀.getOn.run world = ({ p₀ with turns := turns.tail }, world) :=
    Apart.run_steps_arriving hp₀ _
  let p₁ : Apart (StateM σ) := { p₀ with turns := turns.tail, inbox := p₀.inbox.put [s.encode] }
  have hp₁ : p₁.Arriving shop [s.encode] turns.tail :=
    ⟨hshop, rfl, rfl, hp₀.inbox.write [s.encode], ByteSource.holds_wire [], rfl, rfl⟩
  have hsend : (send l p₀ s.encode).run.run world = (.ok p₁, world) := by
    have hlift : (ExceptT.lift (l.send p₀ s.encode) :
        Run (StateM σ) (Except (Option ExitStatus) (Apart (StateM σ)))).run.run world =
          (.ok (.ok p₁), world) := by
      rw [ExceptT.run_lift, run_map]
      dsimp only [l]
      rw [run_bind, hgetOn]
      rfl
    unfold send
    rw [Line.check_of_fits hsent]
    exact (run_ok_bind hlift _).trans rfl
  -- the greeting is waited for
  obtain ⟨p₂, hp₂, hheard⟩ := Apart.run_receive_arriving hp₁ hsent hgreeting
    (hrefused.run_hear hspec hgreeting hfailure) patience
  have hreceive : (receive l settings.timeout p₁).run.run world =
      (.ok (.hello protocolVersion shop.pid s.name, p₂), world') := by
    have hlift : (ExceptT.lift (l.receive settings.timeout p₁) :
        Run (StateM σ) (Heard × Apart (StateM σ))).run.run world =
          (.ok (.message (.hello protocolVersion shop.pid s.name), p₂), world') := by
      rw [ExceptT.run_lift, run_map, hheard]
    unfold receive
    exact (run_ok_bind hlift _).trans rfl
  have hasked : (ask l settings p₀ s.encode greeting).run.run world =
      (.ok (shop.pid, p₂), world') := by
    have hjudge : greeting (.hello protocolVersion shop.pid s.name) = .ok shop.pid := by
      rw [greeting, if_pos rfl]
    unfold ask
    rw [run_ok_bind hsend, run_ok_bind hreceive]
    dsimp only
    rw [hjudge]
    rfl
  -- so it is the first command that is late or in time
  have hturns : turns.tail.headD 0 = turns.getD 1 0 ∧ turns.tail.tail = turns.drop 2 := by
    rcases turns with _ | ⟨_, _ | ⟨_, _⟩⟩ <;> exact ⟨rfl, rfl⟩
  rw [hturns.1, hturns.2] at hp₂
  unfold run
  rw [run_ok_bind hstart, run_ok_bind hasked]
  refine run_rest_of_ask (l := l) (fun c α judge hjudge => ?_) _ 0 { index, pid := shop.pid }
  by_cases hended : Apart.HasEnded turns
  · rw [if_pos hended]
    exact run_ask_ended hp₂ (Command.fits_line c) hended
  · rw [if_neg hended]
    exact run_ask_parting hp₂ hfailure (Command.fits_line c) (Nat.lt_of_not_le hended) (hjudge f)

end Supervisor

namespace Campaign

/-- A campaign whose workers get on by themselves. -/
def apart {m : Type → Type} [Monad m] (c : Campaign m) (pid : UInt32) (patience : Nat)
    (turns : List Nat) : Campaign m :=
  { c with launcher := .apart (c.workshop pid) patience turns }

variable {σ : Type} {c : Campaign (StateM σ)} {s : Spec} {settings : Settings} {index : UInt32}
  {monitors started : List (Monitor (StateM σ))} {before args : List String} {program : String}
  {world world₁ world₂ world₃ : σ} {f : Failure} {pid : UInt32} {patience : Nat}

/-- **A failure before the first iteration is heard exactly if the first command reaches the worker
before its end.**  The worker prepares the trial and sets it up, one of them fails, it reports that
and ends well.  Whatever the steps of the two are, the fork fails as it is reported as long as the
worker has not ended when the first command is sent; and if it has, the report is lost and the
channel is said to be closed. -/
theorem fork_of_refused (turns : List Nat) (hpatience : 2 ≤ patience)
    (hstarted : (startMonitors s monitors).run world = ((started, before), world₁))
    (hcommand : (c.command s started).run.run world₁ = (.ok (program :: args), world₂))
    (hrefused : (c.workshop pid c.probes).Refuses s world₂ f world₃)
    (hdurations : s.overlong? = none) (hsent : s.encode.utf8ByteSize ≤ Line.maxSize)
    (hgreeting : (Message.hello protocolVersion pid s.name).Travels)
    (hfailure : (Message.failure f).Travels) :
    ((c.apart pid patience turns).fork s settings index monitors).run.run world =
      (.error (.error
        (if Apart.HasEnded turns then .process s.label index .closed else .reported s.label f)),
        world₃) := by
  obtain ⟨patience, rfl⟩ := Nat.exists_eq_add_of_le' hpatience
  have hspec : Spec.decode s.encode = .ok s := by
    rw [Spec.decode_encode, hdurations]
  have hsession := Supervisor.run_apart_refused (c.workshop pid) settings index program
    args patience turns rfl hrefused hspec (s.fits_encode hsent) hgreeting hfailure
  rw [run_fork (c := c.apart pid (patience + 2) turns) hstarted hcommand hsession]
  split <;> rfl

/-- A task that cannot be set up. -/
def unready : TaskEntry (StateM Nat) where
  declaration := ⟨"idle", .averageTime, [], []⟩
  create _ := pure ⟨⟨fun level scope => level = .trial ∧ scope = .benchmark⟩, fun
    | .fixture .. => throw (.message "no disk")
    | _ => pure {}⟩

/-- What is reported of it. -/
def unreadyFailure : Failure := ⟨"idle", .setup .trial, none, "no disk"⟩

theorem refuses_unready : (({ idle with registry := .ofList [unready] } : Campaign
    (StateM Nat)).workshop 0 []).Refuses .idle 0 unreadyFailure 0 :=
  .inr ⟨_, _, _, rfl, rfl⟩

/-- A worker that takes one step at a time is heard; one that is quick is lost. -/
theorem fork_of_refused_unready :
    let c : Campaign (StateM Nat) := { idle with registry := .ofList [unready] }
    (((c.apart 0 2 []).fork .idle .idle 0 []).run.run 0).1 =
      .error (.error (.worker unreadyFailure)) ∧
    (((c.apart 0 2 [0, 4]).fork .idle .idle 0 []).run.run 0).1 =
      .error (.error (.process Spec.idle.label 0 .closed)) := by
  intro c
  have htravels : (Message.failure unreadyFailure).Travels := ⟨by cbv, by cbv⟩
  obtain ⟨program, args, hcommand⟩ := exists_command (c := c) .idle 0 (List.cons_ne_nil _ _)
  have hfork (turns : List Nat) : ((c.apart 0 2 turns).fork .idle .idle 0 []).run.run 0 =
      (.error (.error (if Apart.HasEnded turns then .process Spec.idle.label 0 .closed
        else .reported Spec.idle.label unreadyFailure)), 0) :=
    fork_of_refused turns (Nat.le_refl 2) rfl hcommand refuses_unready rfl
      Spec.fits_encode_idle.small travels_hello_idle htravels
  exact ⟨congrArg Prod.fst (hfork []), congrArg Prod.fst (hfork [0, 4])⟩

end Campaign

end Microbench
