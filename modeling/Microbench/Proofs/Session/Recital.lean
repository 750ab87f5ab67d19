import Microbench.Proofs.Engine.Schedule
import Microbench.Proofs.Session.Channel
import Microbench.Proofs.Spec.RoundTrip
import Microbench.Proofs.Worlds

/-!
# Supervising a worker that recites

The hardest worker for a supervisor is one that says whatever it likes and minds
nothing that it is told.  Such a worker recites lines from its launch on, and then
ends in some way or falls silent.  The supervisor follows the recital as long as
each message is the one whose turn it is.

## Main definitions

* `Recital`, `Recital.said` — such a worker, and the messages among its lines.
* `Launcher.reciting` — the launcher of it.
* `Supervisor.InTurn` — reports that come each in its turn.

## Main results

* `ask_of_accepted`, `ask_of_refused`, `ask_of_wrong` — one question to such a worker.
* `exists_inTurn` — how far a supervisor follows.
* `iterations_follow` — the iterations so far.
-/

namespace Microbench

/-- What a worker says from its launch on, whatever it hears, and how it ends. -/
structure Recital where
  /-- The lines, as bytes and without their ends. -/
  lines : List ByteArray
  /-- A line has no other end within. -/
  unbroken : ∀ line ∈ lines, ByteSource.Unbroken line
  /-- The status; a worker without one falls silent. -/
  ending : Option ExitStatus
  /-- What it writes beside the channel. -/
  output : Output := {}

namespace Recital

/-- The channel of the worker. -/
def stream (r : Recital) : ByteSource where
  bytes := ByteSource.ofLines r.lines

/-- The messages that the worker says; `none` stands for a line that is no frame. -/
def said (r : Recital) : List (Option Message) := Frame.messages r.lines

theorem stream_says (r : Recital) : r.stream.Says r.said :=
  ⟨.empty, r.lines, ByteArray.empty_append.symm, rfl, r.unbroken, rfl⟩

/-- A worker that says these messages and nothing else. -/
def ofMessages (messages : List Message) (ending : Option ExitStatus) : Recital where
  lines := messages.map (·.line.toUTF8)
  unbroken line hline := by
    obtain ⟨m, -, rfl⟩ := List.mem_map.1 hline
    exact fun i hi => (ByteSource.get!_toUTF8 (Message.hasBreak_line m) hi).1
  ending := ending

theorem said_ofMessages {messages : List Message} {ending : Option ExitStatus}
    (h : ∀ m ∈ messages, m.Travels) : (ofMessages messages ending).said = messages.map some :=
  Frame.messages_lines h

end Recital

/-- The launcher of a worker that recites. -/
abbrev Launcher.reciting {m : Type → Type} [Monad m] (r : Recital) : Launcher m where
  Worker := ByteSource
  start _ := return .ok r.stream
  send w _ := return .ok w
  receive _ w := return Heard.on r.ending w
  finish _ _ := return r.ending.map (·, r.output)

section Steps

variable {m : Type → Type} [Monad m] [LawfulMonad m] {ε α β : Type}

/-- A computation goes on after a part that gives an answer. -/
theorem run_bind_of_ok {x : ExceptT ε m α} {a : α} (h : x.run = pure (.ok a))
    (f : α → ExceptT ε m β) : (x >>= f).run = (f a).run := by
  rw [ExceptT.run_bind, h, pure_bind]

/-- A computation ends with a part that fails. -/
theorem run_bind_of_error {x : ExceptT ε m α} {e : ε} (h : x.run = pure (.error e))
    (f : α → ExceptT ε m β) : (x >>= f).run = pure (.error e) := by
  rw [ExceptT.run_bind, h, pure_bind]

end Steps

namespace Supervisor

variable {m : Type → Type} [Monad m] [LawfulMonad m] {r : Recital} {w : ByteSource}

/-! ### One question -/

/-- What is heard of the worker is received. -/
theorem run_receive (limit : Duration) :
    (receive (m := m) (.reciting r) limit w).run =
      pure (match Heard.of r.ending w.nextMessage.1 with
        | .message message => .ok (message, w.nextMessage.2)
        | .noise e => .error (.process (.channel e))
        | .closed status => .error (.process (.ofEnd status))
        | .silence => .error (.process (.timeout limit))) := by
  have hreceive : (ExceptT.lift ((Launcher.reciting (m := m) r).receive limit w) :
      Run m (Heard × ByteSource)).run = pure (.ok (Heard.on r.ending w)) := by
    rw [ExceptT.run_lift]
    exact map_pure _ _
  refine (run_bind_of_ok hreceive _).trans ?_
  unfold Heard.on
  dsimp only
  cases Heard.of r.ending w.nextMessage.1 <;> rfl

/-- Lines that fit are sent, though nobody minds them. -/
theorem run_send {line : String} (hline : Line.Fits line) :
    (send (m := m) (.reciting r) w line).run = pure (.ok w) := by
  have hsend : (ExceptT.lift ((Launcher.reciting (m := m) r).send w line) :
      Run m (Except (Option ExitStatus) ByteSource)).run = pure (.ok (.ok w)) := by
    rw [ExceptT.run_lift]
    exact map_pure _ _
  unfold send
  rw [Line.check_of_fits hline]
  exact (run_bind_of_ok hsend _).trans rfl

variable {α : Type} {s : Settings} {line : String} {judge : Message → Except SessionError α}

/-- A question whose answer is what it should be. -/
theorem ask_of_accepted (hline : Line.Fits line) {message : Message}
    {rest : List (Option Message)} (h : w.Says (some message :: rest)) {a : α}
    (hjudge : judge message = .ok a) :
    ∃ w' : ByteSource, w'.Says rest ∧
      (ask (m := m) (.reciting r) s w line judge).run = pure (.ok (a, w')) := by
  obtain ⟨hnext, hrest⟩ := h.next_message
  refine ⟨w.nextMessage.2, hrest, ?_⟩
  have hreceive := run_receive (m := m) (r := r) (w := w) s.timeout
  rw [hnext] at hreceive
  unfold ask
  rw [run_bind_of_ok (run_send hline), run_bind_of_ok hreceive]
  dsimp only
  rw [hjudge]
  rfl

/-- A question whose answer is not what it should be. -/
theorem ask_of_refused (hline : Line.Fits line) {message : Message}
    {rest : List (Option Message)} (h : w.Says (some message :: rest)) {e : SessionError}
    (hjudge : judge message = .error e) :
    (ask (m := m) (.reciting r) s w line judge).run = pure (.error e) := by
  obtain ⟨hnext, -⟩ := h.next_message
  have hreceive := run_receive (m := m) (r := r) (w := w) s.timeout
  rw [hnext] at hreceive
  unfold ask
  rw [run_bind_of_ok (run_send hline), run_bind_of_ok hreceive]
  dsimp only
  rw [hjudge]
  rfl

/-- An answer that is no failure and not what it should be is a failure of the process, and so is
no answer. -/
theorem ask_of_wrong (hline : Line.Fits line) {messages : List (Option Message)}
    (h : w.Says messages)
    (hwrong : ∀ message rest, messages = some message :: rest →
      ∃ p, judge message = .error (.process p)) :
    ∃ p, (ask (m := m) (.reciting r) s w line judge).run = pure (.error (.process p)) := by
  have hreceive := run_receive (m := m) (r := r) (w := w) s.timeout
  rcases h.next with ⟨message, rest, rfl, -⟩ | ⟨e, rest, -, hne, hnext⟩ | ⟨-, hnext⟩
  · obtain ⟨p, hp⟩ := hwrong message rest rfl
    exact ⟨p, ask_of_refused hline h hp⟩
  · -- a line that is no frame
    have hnoise : Heard.of r.ending (.error e) = .noise e := by
      unfold Heard.of
      split
      · next heq => cases heq
      · next heq => exact absurd (Except.error.inj heq) hne
      · next heq => rw [Except.error.inj heq]
    rw [hnext, hnoise] at hreceive
    unfold ask
    rw [run_bind_of_ok (run_send hline), run_bind_of_error hreceive]
    exact ⟨_, rfl⟩
  · -- no line is left: the worker ends or is silent
    rw [hnext] at hreceive
    unfold ask
    rw [run_bind_of_ok (run_send hline)]
    cases hending : r.ending with
    | none =>
      rw [hending] at hreceive
      exact ⟨_, run_bind_of_error hreceive _⟩
    | some status =>
      rw [hending] at hreceive
      exact ⟨_, run_bind_of_error hreceive _⟩

/-! ### The iterations -/

/-- Reports that come each in its turn, the first one when so many have come before. -/
def InTurn (s : Settings) : Nat → List Report → Prop
  | _, [] => True
  | n, r :: reports => (r.phase, r.index) = position s n ∧ InTurn s (n + 1) reports

/-- Reports as they are said. -/
abbrev said (reports : List Report) : List (Option Message) :=
  reports.map fun r => some (.iteration r)

/-- How far a supervisor follows: up to the iterations it asks for, or to the first answer that is
not the report whose turn it is. -/
theorem exists_inTurn (s : Settings) (messages : List (Option Message)) (n more : Nat) :
    ∃ reports rest, messages = said reports ++ rest ∧ InTurn s n reports ∧
      (reports.length = more ∨ reports.length < more ∧
        ∀ r rest', rest = some (.iteration r) :: rest' →
          (r.phase, r.index) ≠ position s (n + reports.length)) := by
  induction more generalizing messages n with
  | zero => exact ⟨[], messages, rfl, trivial, .inl rfl⟩
  | succ more ih =>
    by_cases h : ∃ r rest, messages = some (.iteration r) :: rest ∧
        (r.phase, r.index) = position s n
    · obtain ⟨r, rest, rfl, hturn⟩ := h
      obtain ⟨reports, rest, rfl, hreports, hend⟩ := ih rest (n + 1)
      refine ⟨r :: reports, rest, rfl, ⟨hturn, hreports⟩, ?_⟩
      rw [List.length_cons]
      rcases hend with hall | ⟨hless, hstuck⟩
      · exact .inl (by omega)
      · refine .inr ⟨by omega, fun r rest' hrest => ?_⟩
        have := hstuck r rest' hrest
        rwa [show n + 1 + reports.length = n + (reports.length + 1) by omega] at this
    · exact ⟨[], messages, rfl, trivial, .inr ⟨Nat.succ_pos _, fun r rest' hrest hturn =>
        h ⟨r, rest', hrest, hturn⟩⟩⟩

/-- **The supervisor follows reports that come in their turn.** -/
theorem iterations_follow {reports : List Report} {rest : List (Option Message)}
    {n : Nat} (fork : ForkResult) (h : w.Says (said reports ++ rest))
    (hturn : InTurn s n reports) :
    ∃ w' : ByteSource, w'.Says rest ∧ ∀ more,
      (iterations (m := m) (.reciting r) s (reports.length + more) n fork w).run =
        (iterations (m := m) (.reciting r) s more (n + reports.length)
          (reports.foldl ForkResult.addReport fork) w').run := by
  induction reports generalizing n fork w with
  | nil => exact ⟨w, h, fun more => by rw [List.length_nil, Nat.zero_add]; rfl⟩
  | cons first reports ih =>
    obtain ⟨hfirst, hothers⟩ := hturn
    have hjudge : report s n (.iteration first) = .ok first := if_pos hfirst
    obtain ⟨w', hw', hask⟩ := ask_of_accepted (m := m) (r := r) (s := s)
      (Command.fits_line .iterate) h hjudge
    obtain ⟨w'', hw'', hrun⟩ := ih (fork.addReport first) hw' hothers
    refine ⟨w'', hw'', fun more => ?_⟩
    rw [List.length_cons, show reports.length + 1 + more = reports.length + more + 1 by omega,
      iterations, run_bind_of_ok hask]
    dsimp only
    rw [hrun more, List.foldl_cons, show n + 1 + reports.length = n + (reports.length + 1) by omega]

end Supervisor

end Microbench
