import Microbench.Proofs.Trial.Acceptance

/-!
# What a session collects

A session with a worker, whoever has launched it, ends well only after every iteration of
the schedule has been reported in its turn, and then the fork is made of these reports.
The results of warmup iterations are in none of it: if a worker said that they had
measured something else, the session would come to the same.

## Main definitions

* `Launcher.remeasured` — workers that say that something else was measured.

## Main results

* `Supervisor.run_ok` — a session that ends well.
* `Supervisor.iterations_ofReports` — what a fork has measured.
* `Supervisor.run_remeasured` — **what does not show in a fork does not show in a session.**
-/

namespace Microbench

/-! ### Something else was measured -/

/-- A report that says that something else was measured. -/
def Report.remeasured (g : Report → IterationResult) (r : Report) : Report :=
  { r with result := g r }

def Message.remeasured (g : Report → IterationResult) : Message → Message
  | iteration r => iteration (r.remeasured g)
  | m => m

def Heard.remeasured (g : Report → IterationResult) : Heard → Heard
  | message m => message (m.remeasured g)
  | h => h

/-- Workers that say so of every iteration. -/
abbrev Launcher.remeasured {m : Type → Type} [Monad m] (l : Launcher m)
    (g : Report → IterationResult) : Launcher m :=
  { l with receive := fun limit w => Prod.map (Heard.remeasured g) id <$> l.receive limit w }

/-- What counts of an iteration is not there if it is one of the warmup. -/
theorem ForkResult.addReport_remeasured {g : Report → IterationResult}
    (hg : ∀ r, r.phase = .measurement → g r = r.result) (fork : ForkResult) (r : Report) :
    fork.addReport (r.remeasured g) = fork.addReport r := by
  unfold addReport Report.remeasured
  by_cases hphase : r.phase = .measurement
  · rw [hg r hphase]
  · simp only [if_neg hphase]

namespace Supervisor

/-! ### What a session is made of -/

section Collecting

variable {σ : Type} {l : Launcher (StateM σ)} {s : Settings}

/-- An answer that is taken is what some message is judged to be. -/
theorem ask_ok {α : Type} (w : l.Worker) (line : String)
    (judge : Message → Except SessionError α) :
    Ensures (ask l s w line judge) fun x => ∃ message, judge message = .ok x.1 := by
  refine Ensures.trivial.bind fun w _ => Ensures.trivial.bind fun x _ => ?_
  obtain ⟨message, w⟩ := x
  dsimp only
  split
  · next a h => exact Ensures.pure ⟨message, h⟩
  · exact Ensures.throw

/-- A report that is taken is the one whose turn it is. -/
theorem place_of_report {n : Nat} {message : Message} {r : Report}
    (h : report s n message = .ok r) : (r.phase, r.index) = position s n := by
  cases message with
  | iteration r' =>
    rw [report] at h
    split at h
    · next hplace =>
      obtain rfl := Except.ok.inj h
      exact hplace
    · cases h
  | _ => cases h

/-- The iterations are collected from reports that come in their turn. -/
theorem iterations_ok (more n : Nat) (fork : ForkResult) (w : l.Worker) :
    Ensures (iterations l s more n fork w) fun x => ∃ reports, InTurn s n reports ∧
      reports.length = more ∧ x.1 = reports.foldl ForkResult.addReport fork := by
  induction more generalizing n fork w with
  | zero => exact Ensures.pure ⟨[], trivial, rfl, rfl⟩
  | succ more ih =>
    refine (ask_ok w _ (report s n)).bind fun x hx => ?_
    obtain ⟨r, w⟩ := x
    obtain ⟨message, hmessage⟩ := hx
    refine (ih (n + 1) (fork.addReport r) w).mono fun x hx => ?_
    obtain ⟨reports, hturn, hlength, hfork⟩ := hx
    exact ⟨r :: reports, ⟨place_of_report hmessage, hturn⟩, congrArg (· + 1) hlength, hfork⟩

/-- **A session that ends well** has collected the report of every iteration, each in its turn. -/
theorem run_ok (command probes : List String) (spec : Spec) (index : UInt32) :
    Ensures (run l command probes spec s index) fun x => ∃ pid reports, InTurn s 0 reports ∧
      reports.length = s.iterations.toNat ∧ x.1 = .ofReports index pid reports := by
  refine Ensures.trivial.bind fun w _ => Ensures.trivial.bind fun x _ => ?_
  obtain ⟨pid, w⟩ := x
  refine (iterations_ok s.iterations.toNat 0 { index, pid } w).bind fun x hx => ?_
  obtain ⟨fork, w⟩ := x
  obtain ⟨reports, hturn, hlength, hfork⟩ := hx
  refine Ensures.trivial.bind fun x _ => Ensures.trivial.bind fun output _ => Ensures.pure ?_
  exact ⟨pid, reports, hturn, hlength, hfork.trans (ForkResult.foldl_addReport index pid reports)⟩

/-- **The iterations of a fork** are those that come after the warmup. -/
theorem iterations_ofReports {reports : List Report} (hturn : InTurn s 0 reports)
    (hall : reports.length = s.total) (index pid : UInt32) :
    (ForkResult.ofReports index pid reports).iterations =
      (reports.drop s.warmup.count.toNat).map (·.result) := by
  have hplaces : reports.map Report.place = s.schedule := by
    rw [(inTurn_iff (by omega)).1 hturn, List.drop_zero, hall]
    exact List.take_of_length_le (Nat.le_of_eq (length_schedule _ _))
  -- what comes first in the schedule is warmup, and what comes then counts
  have hfirst : ∀ r ∈ reports.take s.warmup.count.toNat, r.phase = .warmup := by
    intro r hr
    have hplace := List.mem_map_of_mem (f := Report.place) hr
    rw [List.map_take, hplaces, Settings.schedule, schedule, List.take_left' (by simp)] at hplace
    obtain ⟨i, -, hi⟩ := List.mem_map.1 hplace
    exact (congrArg Prod.fst hi).symm
  have hlast : ∀ r ∈ reports.drop s.warmup.count.toNat, r.phase = .measurement := by
    intro r hr
    have hplace := List.mem_map_of_mem (f := Report.place) hr
    rw [List.map_drop, hplaces, Settings.schedule, schedule, List.drop_left' (by simp)] at hplace
    obtain ⟨i, -, hi⟩ := List.mem_map.1 hplace
    exact (congrArg Prod.fst hi).symm
  have hnone : (reports.take s.warmup.count.toNat).filter (·.phase = .measurement) = [] :=
    List.filter_eq_nil_iff.2 fun r hr => by simp [hfirst r hr]
  have hrest : (reports.drop s.warmup.count.toNat).filter (·.phase = .measurement) =
      reports.drop s.warmup.count.toNat :=
    List.filter_eq_self.2 fun r hr => by simp [hlast r hr]
  unfold ForkResult.ofReports
  dsimp only
  conv => lhs; rw [← List.take_append_drop s.warmup.count.toNat reports]
  rw [List.filter_append, hnone, hrest, List.nil_append]

end Collecting

/-! ### Sessions in which something else is said -/

variable {m : Type → Type} [Monad m] [LawfulMonad m] {l : Launcher m} {s : Settings}
  {g : Report → IterationResult}

theorem map_throw {α β : Type} (f : α → β) (e : SessionError) :
    f <$> (throw e : Run m α) = throw e := by
  apply ExceptT.ext
  rw [ExceptT.run_map, ExceptT.run_throw, map_pure, ExceptT.run_throw]
  rfl

theorem receive_remeasured (limit : Duration) (w : l.Worker) :
    receive (l.remeasured g) limit w =
      Prod.map (Message.remeasured g) id <$> receive l limit w := by
  have hlift (x : m (Heard × l.Worker)) :
      (ExceptT.lift (Prod.map (Heard.remeasured g) id <$> x) : Run m (Heard × l.Worker)) =
        Prod.map (Heard.remeasured g) id <$> ExceptT.lift x := by
    apply ExceptT.ext
    rw [ExceptT.run_lift, ExceptT.run_map, ExceptT.run_lift, Functor.map_map, Functor.map_map]
    rfl
  unfold receive
  refine (congrArg (· >>= _) (hlift _)).trans ?_
  rw [bind_map_left, map_bind]
  refine bind_congr fun x => ?_
  obtain ⟨heard, w⟩ := x
  cases heard with
  | message message => exact (map_pure (Prod.map (Message.remeasured g) id) (message, w)).symm
  | noise e => exact (map_throw _ _).symm
  | closed status => exact (map_throw _ _).symm
  | silence => exact (map_throw _ _).symm

/-- Asking such a worker is asking the other and judging as if it had said something else. -/
theorem ask_remeasured {α : Type} (w : l.Worker) (line : String)
    (judge : Message → Except SessionError α) :
    ask (l.remeasured g) s w line judge =
      ask l s w line fun message => judge (message.remeasured g) := by
  have hsend : send (l.remeasured g) w line = send l w line := by
    unfold send
    split
    · rfl
    · refine bind_congr (m := Run m) fun x => ?_
      cases x <;> rfl
  have hreceive (w : l.Worker) := receive_remeasured (g := g) (l := l) s.timeout w
  unfold ask
  refine (congrArg (· >>= _) hsend).trans (bind_congr (m := Run m) fun w => ?_)
  refine (congrArg (· >>= _) (hreceive w)).trans ((bind_map_left _ _ _).trans ?_)
  refine bind_congr (m := Run m) fun x => ?_
  obtain ⟨message, w⟩ := x
  cases judge (message.remeasured g) <;> rfl

theorem ask_map {α β : Type} (f : α → β) (w : l.Worker) (line : String)
    (judge : Message → Except SessionError α) :
    ask l s w line (fun message => (judge message).map f) =
      Prod.map f id <$> ask l s w line judge := by
  unfold ask
  rw [map_bind]
  refine bind_congr (m := Run m) fun w => ?_
  rw [map_bind]
  refine bind_congr (m := Run m) fun x => ?_
  obtain ⟨message, w⟩ := x
  dsimp only
  cases judge message with
  | ok a => exact (map_pure (Prod.map f id) (a, w)).symm
  | error e => exact (map_throw _ _).symm

/-- What greets and what completes has not been measured. -/
theorem greeting_remeasured (message : Message) :
    greeting (message.remeasured g) = greeting message := by
  cases message <;> rfl

theorem completion_remeasured (message : Message) :
    completion s (message.remeasured g) = completion s message := by
  cases message <;> rfl

theorem report_remeasured (n : Nat) (message : Message) :
    report s n (message.remeasured g) = (report s n message).map (Report.remeasured g) := by
  cases message with
  | iteration r =>
    by_cases hplace : (r.phase, r.index) = position s n
    · have hplace' : ((r.remeasured g).phase, (r.remeasured g).index) = position s n := hplace
      rw [Message.remeasured, report, report, if_pos hplace, if_pos hplace']
      rfl
    · have hplace' : ¬ ((r.remeasured g).phase, (r.remeasured g).index) = position s n := hplace
      rw [Message.remeasured, report, report, if_neg hplace, if_neg hplace']
      rfl
  | _ => rfl

section

variable {β : Type} {f : ForkResult → β}

/-- What is seen of a fork is not changed by the results of these reports. -/
abbrev Hides (f : ForkResult → β) (g : Report → IterationResult) : Prop :=
  ∀ fork fork' r, f fork = f fork' → f (fork.addReport (r.remeasured g)) = f (fork'.addReport r)

theorem iterations_remeasured (hf : Hides f g) (more n : Nat) {fork fork' : ForkResult}
    (h : f fork = f fork') (w : l.Worker) :
    Prod.map f id <$> iterations (l.remeasured g) s more n fork w =
      Prod.map f id <$> iterations l s more n fork' w := by
  induction more generalizing n fork fork' w with
  | zero =>
    refine (map_pure (Prod.map f id) (fork, w)).trans ?_
    refine Eq.trans ?_ (map_pure (Prod.map f id) (fork', w)).symm
    exact congrArg (fun b => pure (b, w)) h
  | succ more ih =>
    -- the report is taken in its turn or refused alike; what it says only shows in the fork
    have hask : ask (l.remeasured g) s w Command.iterate.line (report s n) =
        Prod.map (Report.remeasured g) id <$> ask l s w Command.iterate.line (report s n) := by
      rw [ask_remeasured, ← ask_map]
      exact congrArg (ask l s w _) (funext (report_remeasured n))
    unfold iterations
    rw [map_bind]
    refine (congrArg (· >>= _) hask).trans ((bind_map_left _ _ _).trans ?_)
    refine Eq.trans ?_ (map_bind _ _ _).symm
    refine bind_congr (m := Run m) fun x => ?_
    obtain ⟨r, w⟩ := x
    exact ih (n + 1) (hf fork fork' r h) w

/-- What comes after the iterations does not look at what they have measured. -/
def ending {m : Type → Type} [Monad m] (l : Launcher m) (s : Settings) (w : l.Worker) :
    Run m Output := do
  let ((), w) ← ask l s w Command.terminate.line (completion s)
  finish l s.timeout w

theorem close_eq (x : ForkResult × l.Worker) : close l s x = (x.1, ·) <$> ending l s x.2 := by
  obtain ⟨fork, w⟩ := x
  unfold close ending
  rw [map_bind]
  refine bind_congr (m := Run m) fun x => ?_
  obtain ⟨⟨⟩, w⟩ := x
  exact bind_pure_comp _ _

theorem ending_remeasured (w : l.Worker) : ending (l.remeasured g) s w = ending l s w := by
  have hask : ask (l.remeasured g) s w Command.terminate.line (completion s) =
      ask l s w Command.terminate.line (completion s) := by
    rw [ask_remeasured]
    exact congrArg (ask l s w _) (funext completion_remeasured)
  have hfinish (w : l.Worker) : finish (l.remeasured g) s.timeout w = finish l s.timeout w := rfl
  unfold ending
  refine (congrArg (· >>= _) hask).trans (bind_congr (m := Run m) fun x => ?_)
  obtain ⟨⟨⟩, w⟩ := x
  exact hfinish w

omit [LawfulMonad m] in
theorem start_remeasured (command probes : List String) :
    start (l.remeasured g) command probes = start l command probes := by
  unfold start
  split
  · rfl
  · refine bind_congr (m := Run m) fun x => ?_
    cases x <;> rfl

/-- **What does not show in a fork does not show in a session.** -/
theorem run_remeasured (hf : Hides f g) (command probes : List String) (spec : Spec)
    (index : UInt32) :
    Prod.map f id <$> run (l.remeasured g) command probes spec s index =
      Prod.map f id <$> run l command probes spec s index := by
  have hgreeting (w : l.Worker) : ask (l.remeasured g) s w spec.encode greeting =
      ask l s w spec.encode greeting := by
    rw [ask_remeasured]
    exact congrArg (ask l s w _) (funext greeting_remeasured)
  have hrest (l' : Launcher m) (pid : UInt32) (w : l'.Worker) :
      Prod.map f id <$> (iterations l' s s.iterations.toNat 0 { index, pid } w >>= close l' s) =
        (Prod.map f id <$> iterations l' s s.iterations.toNat 0 { index, pid } w) >>= fun x =>
          (x.1, ·) <$> ending l' s x.2 := by
    rw [map_bind, bind_map_left]
    refine bind_congr fun x => ?_
    rw [close_eq, Functor.map_map]
    rfl
  have hrun (l' : Launcher m) : run l' command probes spec s index =
      start l' command probes >>= fun w => ask l' s w spec.encode greeting >>= fun x =>
        iterations l' s s.iterations.toNat 0 { index, pid := x.1 } x.2 >>= close l' s := rfl
  -- up to the iterations nothing is measured, and after them nothing is looked at
  rw [hrun l, hrun (l.remeasured g), map_bind, map_bind]
  refine (congrArg (· >>= _) (start_remeasured command probes)).trans ?_
  refine bind_congr (m := Run m) fun w => ?_
  rw [map_bind, map_bind]
  refine (congrArg (· >>= _) (hgreeting w)).trans ?_
  refine bind_congr (m := Run m) fun x => ?_
  refine (hrest (l.remeasured g) x.1 x.2).trans (Eq.trans ?_ (hrest l x.1 x.2).symm)
  have hiterations := iterations_remeasured (l := l) (s := s) hf s.iterations.toNat 0
    (rfl : f { index, pid := x.1 } = f { index, pid := x.1 }) x.2
  refine (congrArg (· >>= _) hiterations).trans ?_
  refine bind_congr (m := Run m) fun y => ?_
  have hending : ending (l.remeasured g) s y.2 = ending l s y.2 :=
    ending_remeasured (l := l) (g := g) y.2
  exact congrArg (_ <$> ·) hending

end

end Supervisor

end Microbench
