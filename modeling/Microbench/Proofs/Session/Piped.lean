import Microbench.Proofs.Engine.Harvest
import Microbench.Proofs.Session.Channel
import Microbench.Proofs.Session.Serving
import Microbench.Session.Supervisor

/-!
# A worker behind two pipes

A worker that is a process of its own shares nothing with its supervisor but two
streams of bytes.  What is sent goes into the one; the worker reads it from there line
by line, and what it answers goes into the other.  As long as both pipes are drained
between two questions, a question is answered by what the worker writes about it.

## Main definitions

* `Piped`, `Launcher.piped` — such a worker, and the launcher of such workers.
* `Supervisor.Stands` — where a worker stands between two questions.
* `Delivers` — lines of which a message is the first thing that is heard.

## Main results

* `run_ask_piped` — one question to such a worker.
-/

namespace Microbench

/-- A worker behind two pipes. -/
structure Piped (m : Type → Type) where
  /-- What it works with. -/
  shop : Workshop m
  /-- Its session. -/
  session : Session m := .waiting
  /-- The pipe it reads from. -/
  inbox : ByteSource := { bytes := .empty }
  /-- The pipe it writes to. -/
  outbox : ByteSource := { bytes := .empty }

/-- The status of a worker whose session is over. -/
def Piped.status? {m : Type → Type} (p : Piped m) : Option ExitStatus :=
  match p.session with
  | .ended (.ok ()) => some (.code 0)
  | .ended (.error e) => some (.code e.exitCode)
  | _ => none

/-- A worker that is ended by an error does not end well. -/
theorem WorkerError.isSuccess_exitCode (e : WorkerError) :
    ¬ (ExitStatus.code e.exitCode).isSuccess = true := by
  cases e <;> exact Bool.false_ne_true

/-- A stream with more lines at its end. -/
def ByteSource.put (s : ByteSource) (lines : List String) : ByteSource :=
  { s with bytes := s.bytes ++ wire lines }

/-- The launcher of workers behind pipes, which take whatever is written to them. -/
abbrev Launcher.piped {m : Type → Type} [Monad m] (workshop : List String → Workshop m) :
    Launcher m where
  Worker := Piped m
  start launch := return .ok { shop := workshop launch.probes }
  send p line := do
    let (input, inbox) := (p.inbox.put [line]).readLine
    let (written, session) ← Session.hear p.shop p.session input
    return .ok { p with session, inbox, outbox := p.outbox.put written }
  receive _ p :=
    let (heard, outbox) := Heard.on p.status? p.outbox
    return (heard, { p with outbox })
  finish _ p := return p.status?.map (·, {})

/-! ### What is heard of lines -/

/-- Of these lines the message is the first thing that is heard, and then these are left. -/
def Delivers (lines : List String) (m : Message) (rest : List String) : Prop :=
  ∀ s : ByteSource, s.Holds lines → s.nextMessage.1 = .ok m ∧ s.nextMessage.2.Holds rest

theorem Message.Travels.delivers {m : Message} (h : m.Travels) (rest : List String) :
    Delivers (m.line :: rest) m rest := by
  intro s hs
  exact hs.nextMessage_message h.fits h.ofLine

/-- What is logged is not heard. -/
theorem Delivers.log {lines rest : List String} {m : Message} (h : Delivers lines m rest)
    {line : String} (hfits : Line.Fits line) (hlog : Frame.ofLine line = some (.log line)) :
    Delivers (line :: lines) m rest := by
  intro s hs
  obtain ⟨s', hs', hnext⟩ := hs.nextMessage_log hfits hlog
  rw [hnext]
  exact h s' hs'

/-! ### One question -/

namespace Supervisor

variable {σ : Type} (workshop : List String → Workshop (StateM σ)) {p : Piped (StateM σ)}
  {world world' : σ} {s : Settings} {line : String} {pending written rest : List String}
  {session : Session (StateM σ)} {m : Message}

/-- Where a worker stands between two questions: with this session, and with these lines that have
not been heard. -/
structure Stands (p : Piped (StateM σ)) (shop : Workshop (StateM σ)) (session : Session (StateM σ))
    (pending : List String) : Prop where
  shop : p.shop = shop
  session : p.session = session
  inbox : p.inbox.Holds []
  outbox : p.outbox.Holds pending

/-- A line that is sent is heard, and what is written waits with what was there. -/
theorem run_send_piped {shop : Workshop (StateM σ)} {before : Session (StateM σ)}
    (hp : Stands p shop before pending) (hline : Line.Fits line)
    (hheard : (Session.hear shop before (.ok line)).run world = ((written, session), world')) :
    ∃ p', Stands p' shop session (pending ++ written) ∧
      (send (.piped workshop) p line).run.run world = (.ok p', world') := by
  obtain ⟨hread, hrest⟩ := (hp.inbox.write [line]).readLine_cons hline
  refine ⟨{ p with
    session
    inbox := (p.inbox.put [line]).readLine.2
    outbox := p.outbox.put written }, ⟨hp.shop, rfl, hrest, hp.outbox.write written⟩, ?_⟩
  have hinput : (p.inbox.put [line]).readLine.1 = .ok line := hread
  have hlift : (ExceptT.lift ((Launcher.piped workshop).send p line) :
      Run (StateM σ) (Except (Option ExitStatus) (Piped (StateM σ)))).run.run world =
        (.ok (.ok { p with
          session
          inbox := (p.inbox.put [line]).readLine.2
          outbox := p.outbox.put written }), world') := by
    rw [ExceptT.run_lift, run_map]
    dsimp only
    rw [run_bind, hinput, hp.shop, hp.session, hheard]
    rfl
  unfold send
  rw [Line.check_of_fits hline]
  exact (run_ok_bind hlift _).trans rfl

/-- A message that is delivered is received. -/
theorem run_receive_piped {shop : Workshop (StateM σ)} (hp : Stands p shop session pending)
    (h : Delivers pending m rest) (limit : Duration) (world : σ) :
    ∃ p', Stands p' shop session rest ∧
      (receive (.piped workshop) limit p).run.run world = (.ok (m, p'), world) := by
  obtain ⟨hnext, hrest⟩ := h p.outbox hp.outbox
  refine ⟨{ p with outbox := p.outbox.nextMessage.2 }, ⟨hp.shop, hp.session, hp.inbox, hrest⟩, ?_⟩
  have hlift : (ExceptT.lift ((Launcher.piped workshop).receive limit p) :
      Run (StateM σ) (Heard × Piped (StateM σ))).run.run world =
        (.ok (.message m, { p with outbox := p.outbox.nextMessage.2 }), world) := by
    rw [ExceptT.run_lift, run_map]
    dsimp only [Heard.on]
    rw [run_pure, hnext]
    rfl
  unfold receive
  exact (run_ok_bind hlift _).trans rfl

/-- **One question**: the line is heard, and of what is written, the message is the answer. -/
theorem run_ask_piped {shop : Workshop (StateM σ)} {before : Session (StateM σ)}
    (hp : Stands p shop before pending) (hline : Line.Fits line)
    (hheard : (Session.hear shop before (.ok line)).run world = ((written, session), world'))
    (hdelivers : Delivers (pending ++ written) m rest) :
    ∃ p', Stands p' shop session rest ∧ ∀ {α : Type} (judge : Message → Except SessionError α),
      (ask (.piped workshop) s p line judge).run.run world =
        ((judge m).map (·, p'), world') := by
  obtain ⟨p₁, hp₁, hsend⟩ := run_send_piped workshop hp hline hheard
  obtain ⟨p₂, hp₂, hreceive⟩ := run_receive_piped workshop hp₁ hdelivers s.timeout world'
  refine ⟨p₂, hp₂, fun judge => ?_⟩
  unfold ask
  rw [run_ok_bind hsend, run_ok_bind hreceive]
  dsimp only
  cases judge m <;> rfl

/-- A worker that has ended badly and has nothing more to say does not answer: what is found is how
it has ended. -/
theorem run_ask_endedBadly {shop : Workshop (StateM σ)} {e : WorkerError}
    (hp : Stands p shop (.ended (.error e)) []) (hline : Line.Fits line) {α : Type}
    (judge : Message → Except SessionError α) (world : σ) :
    (ask (.piped workshop) s p line judge).run.run world =
      (.error (.process (.exited (.code e.exitCode))), world) := by
  have hheard : (Session.hear shop (.ended (.error e)) (.ok line)).run world =
      (([], .ended (.error e)), world) := rfl
  obtain ⟨p', hp', hsend⟩ := run_send_piped workshop hp hline hheard
  have hstatus : p'.status? = some (.code e.exitCode) := by
    rw [Piped.status?, hp'.session]
  have hlift : (ExceptT.lift ((Launcher.piped workshop).receive s.timeout p') :
      Run (StateM σ) (Heard × Piped (StateM σ))).run.run world =
        (.ok (.closed (some (.code e.exitCode)), { p' with outbox := p'.outbox.nextMessage.2 }),
          world) := by
    rw [ExceptT.run_lift, run_map]
    dsimp only [Heard.on]
    rw [run_pure, hp'.outbox.nextMessage_nil.1, hstatus]
    rfl
  have hbad : ProcessFailure.ofEnd (some (.code e.exitCode)) = .exited (.code e.exitCode) :=
    if_neg e.isSuccess_exitCode
  have hreceive : (receive (.piped workshop) s.timeout p').run.run world =
      (.error (.process (.exited (.code e.exitCode))), world) := by
    rw [← hbad]
    unfold receive
    exact (run_ok_bind hlift _).trans rfl
  rw [ask, run_ok_bind hsend, run_error_bind hreceive]

end Supervisor

end Microbench
