import Microbench.Proofs.Wire.Stream

/-!
# What a writer of frames leaves behind

Log text and messages are written on one channel, a line each.  A text that is no line is
refused, and then nothing of it comes on the channel.  Whoever reads the channel from its
beginning finds the frames that were not refused, in their order, and then its end.

## Main definitions

* `Frame.line` — the line of a frame.
* `Frame.Readable` — a frame that is understood as what it is.
* `Frame.Written` — what is promised of a frame that is written.
* `Frame.accepted` — the frames that were not refused.
* `Frame.readings` — what is read when so many frames are asked for.

## Main results

* `Frame.written_append` — one frame is written or refused.
* `Line.appendAll_step` — every line is appended to what is there.
* `Frame.wire_accepted` — the bytes on the channel are those of the frames that were not refused.
* `Frame.readings_of_holds` — reading a channel of frames to its end.
* `Frame.transcript_faithful` — **what was not refused is read, and nothing else.**
-/

namespace Microbench

namespace Frame

/-- The line of a frame: log text as it is, a message behind the marker. -/
def line : Frame → String
  | log text => text
  | message m => m.line

/-- A frame that is understood as what it is: log text that does not start like a message, or a
message whose text is read as the message. -/
def Readable : Frame → Prop
  | log text => ¬ marker.toList <+: text.toList
  | message m => Message.parse? m.text.toList = some m

theorem Readable.ofLine {f : Frame} (h : f.Readable) : ofLine f.line = some f := by
  cases f with
  | log text =>
    have hpayload : payload? text.toList = none := by
      rw [payload?, if_neg fun hprefix => h (List.isPrefixOf_iff_prefix.1 hprefix)]
    rw [line, Frame.ofLine, hpayload]
  | message m =>
    rw [line, ofLine_message, show Message.parse? m.text.toList = some m from h]
    rfl

end Frame

/-! ### One line -/

namespace Line

theorem hasBreak_iff {s : String} : hasBreak s = true ↔ '\n' ∈ s.toList ∨ '\r' ∈ s.toList := by
  have hany : hasBreak s = s.toList.any fun c => c == '\n' || c == '\r' :=
    String.contains_bool_eq
  rw [hany, List.any_eq_true]
  simp only [Bool.or_eq_true, beq_iff_eq]
  constructor
  · rintro ⟨c, hc, rfl | rfl⟩
    · exact .inl hc
    · exact .inr hc
  · rintro (h | h)
    · exact ⟨_, h, .inl rfl⟩
    · exact ⟨_, h, .inr rfl⟩

theorem append_of_break {s : String} (h : hasBreak s = true) (written : String) :
    append written s = (written, .error .lineBreak) := by
  rw [append, check, h, if_pos rfl]

theorem append_of_large {s : String} (h : hasBreak s = false) (hlarge : maxSize < s.utf8ByteSize)
    (written : String) : append written s = (written, .error .tooLarge) := by
  rw [append, check_of_unbroken h, if_pos hlarge]

theorem append_of_fits {s : String} (h : Fits s) (written : String) :
    append written s = (written ++ (s ++ "\n"), .ok ()) := by
  rw [append, check_of_fits h]

/-- A text breaks, or it does not and is too large, or it fits. -/
theorem break_or_large_or_fits (s : String) :
    hasBreak s = true ∨ (hasBreak s = false ∧ maxSize < s.utf8ByteSize) ∨ Fits s := by
  cases h : hasBreak s with
  | true => exact .inl rfl
  | false =>
    rcases Nat.lt_or_ge maxSize s.utf8ByteSize with hlarge | hsmall
    · exact .inr (.inl ⟨rfl, hlarge⟩)
    · exact .inr (.inr ⟨h, hsmall⟩)

/-! ### One line after the other -/

theorem appendAll_cons (written s : String) (rest : List String) :
    appendAll written (s :: rest) =
      ((appendAll (append written s).1 rest).1,
        (append written s).2 :: (appendAll (append written s).1 rest).2) := rfl

/-- **Every line is appended to what the lines before it have left.** -/
theorem appendAll_step {lines : List String} {n : Nat} {s : String} (h : lines[n]? = some s)
    (written : String) :
    (appendAll written (lines.take (n + 1))).1 =
        (append (appendAll written (lines.take n)).1 s).1 ∧
      (appendAll written lines).2[n]? =
        some (append (appendAll written (lines.take n)).1 s).2 := by
  induction lines generalizing written n with
  | nil => cases h
  | cons first rest ih =>
    cases n with
    | zero =>
      obtain rfl := Option.some.inj h
      exact ⟨rfl, rfl⟩
    | succ n => exact ih h (append written first).1

end Line

namespace Frame

/-! ### What becomes of a frame -/

/-- What is promised of a frame that is written, from what was on the channel before it and what is
on it afterwards. -/
structure Written (f : Frame) (before after : String) (result : Except Line.Error Unit) : Prop where
  /-- Log text with a line break is refused, and nothing else is for that reason. -/
  lineBreak : result = .error .lineBreak ↔
    ∃ text, f = .log text ∧ ('\n' ∈ text.toList ∨ '\r' ∈ text.toList)
  /-- Of what does not break the line, what is too large is refused. -/
  tooLarge : result = .error .tooLarge ↔
    result ≠ .error .lineBreak ∧ Line.maxSize < f.line.utf8ByteSize
  /-- There is no other reason, and what is refused leaves the channel as it is. -/
  refused : ∀ e, result = .error e → (e = .lineBreak ∨ e = .tooLarge) ∧ after = before
  /-- What is not refused is on the channel, with the end of its line. -/
  accepted : result = .ok () → after = before ++ (f.line ++ "\n")

theorem hasBreak_line_iff (f : Frame) : Line.hasBreak f.line = true ↔
    ∃ text, f = .log text ∧ ('\n' ∈ text.toList ∨ '\r' ∈ text.toList) := by
  cases f with
  | log text =>
    rw [line, Line.hasBreak_iff]
    exact ⟨fun h => ⟨text, rfl, h⟩, fun ⟨_, heq, h⟩ => log.inj heq ▸ h⟩
  | message m =>
    rw [line, Message.hasBreak_line]
    exact ⟨nofun, fun ⟨_, heq, _⟩ => nomatch heq⟩

/-- **A frame is written or refused.** -/
theorem written_append (f : Frame) (before : String) :
    f.Written before (Line.append before f.line).1 (Line.append before f.line).2 := by
  have hbreaks := f.hasBreak_line_iff
  rcases Line.break_or_large_or_fits f.line with h | ⟨h, hlarge⟩ | h
  · rw [Line.append_of_break h]
    exact ⟨iff_of_true rfl (hbreaks.1 h), iff_of_false nofun fun hne => hne.1 rfl,
      fun _ heq => ⟨.inl (Except.error.inj heq).symm, rfl⟩, nofun⟩
  · have hunbroken := mt hbreaks.2 (by rw [h]; exact Bool.false_ne_true)
    rw [Line.append_of_large h hlarge]
    exact ⟨iff_of_false nofun hunbroken, iff_of_true rfl ⟨nofun, hlarge⟩,
      fun _ heq => ⟨.inr (Except.error.inj heq).symm, rfl⟩, nofun⟩
  · have hunbroken := mt hbreaks.2 (by rw [h.unbroken]; exact Bool.false_ne_true)
    rw [Line.append_of_fits h]
    exact ⟨iff_of_false nofun hunbroken,
      iff_of_false nofun fun hlarge => Nat.not_lt.2 h.small hlarge.2, nofun, fun _ => rfl⟩

/-! ### The channel afterwards -/

/-- The frames that were not refused. -/
def accepted (frames : List Frame) (results : List (Except Line.Error Unit)) : List Frame :=
  (frames.zip results).filterMap fun
    | (f, .ok ()) => some f
    | (_, .error _) => none

theorem accepted_cons_ok (f : Frame) (frames : List Frame)
    (results : List (Except Line.Error Unit)) :
    accepted (f :: frames) (.ok () :: results) = f :: accepted frames results := rfl

theorem accepted_cons_error (f : Frame) (frames : List Frame) (e : Line.Error)
    (results : List (Except Line.Error Unit)) :
    accepted (f :: frames) (.error e :: results) = accepted frames results := rfl

/-- **The bytes on the channel are those of the frames that were not refused**, and all of these are
lines. -/
theorem wire_accepted (frames : List Frame) (before : String) :
    let (after, results) := Line.appendAll before (frames.map line)
    after.toUTF8 = before.toUTF8 ++ ByteSource.wire ((accepted frames results).map line) ∧
      ∀ f ∈ accepted frames results, f ∈ frames ∧ Line.Fits f.line := by
  induction frames generalizing before with
  | nil => exact ⟨ByteArray.append_empty.symm, nofun⟩
  | cons f frames ih =>
    rw [List.map_cons, Line.appendAll_cons]
    obtain ⟨hbytes, hfits⟩ := ih (Line.append before f.line).1
    have hlater : ∀ g ∈ accepted frames
        (Line.appendAll (Line.append before f.line).1 (frames.map line)).2,
        g ∈ f :: frames ∧ Line.Fits g.line := fun g hg =>
      ⟨List.mem_cons_of_mem _ (hfits g hg).1, (hfits g hg).2⟩
    -- What is refused leaves the channel as it is, for whichever reason.
    have hrefused : ∀ e, Line.append before f.line = (before, .error e) →
        (Line.appendAll (Line.append before f.line).1 (frames.map line)).1.toUTF8 =
          before.toUTF8 ++ ByteSource.wire ((accepted (f :: frames)
            ((Line.append before f.line).2 :: (Line.appendAll (Line.append before f.line).1
              (frames.map line)).2)).map line) ∧
        ∀ g ∈ accepted (f :: frames) ((Line.append before f.line).2 ::
          (Line.appendAll (Line.append before f.line).1 (frames.map line)).2),
          g ∈ f :: frames ∧ Line.Fits g.line := by
      intro e he
      rw [he] at hbytes hlater ⊢
      rw [accepted_cons_error]
      exact ⟨hbytes, hlater⟩
    rcases Line.break_or_large_or_fits f.line with h | ⟨h, hlarge⟩ | h
    · exact hrefused _ (Line.append_of_break h before)
    · exact hrefused _ (Line.append_of_large h hlarge before)
    · rw [Line.append_of_fits h] at hbytes hlater ⊢
      refine ⟨?_, ?_⟩
      · rw [hbytes, accepted_cons_ok, List.map_cons, ByteSource.wire_cons]
        simp only [String.toUTF8_eq_toByteArray, String.toByteArray_append, ByteArray.append_assoc]
      · rw [accepted_cons_ok]
        exact List.forall_mem_cons.2 ⟨⟨List.mem_cons_self, h⟩, hlater⟩

/-! ### Reading it -/

/-- What is read when so many frames are asked for, whatever becomes of those before. -/
def readings : Nat → ByteSource → List (Except FrameError Frame)
  | 0, _ => []
  | n + 1, s => (read s).1 :: readings n (read s).2

/-- A frame that a channel holds is read, and leaves the others. -/
theorem read_of_holds {s : ByteSource} {f : Frame} {lines : List String}
    (h : s.Holds (f.line :: lines)) (hfits : Line.Fits f.line) (hreadable : f.Readable) :
    (read s).1 = .ok f ∧ (read s).2.Holds lines := by
  obtain ⟨hline, hrest⟩ := h.readLine_cons hfits
  have hread : read s = (.ok f, s.readLine.2) := by
    rw [read, ← Prod.eta s.readLine, hline]
    dsimp only
    rw [hreadable.ofLine]
  rw [hread]
  exact ⟨rfl, hrest⟩

/-- **Reading a channel of frames to its end** and beyond. -/
theorem readings_of_holds {frames : List Frame} {s : ByteSource} (h : s.Holds (frames.map line))
    (hframes : ∀ f ∈ frames, Line.Fits f.line ∧ f.Readable) (more : Nat) :
    readings (frames.length + more) s =
      frames.map .ok ++ List.replicate more (.error (.line .ended)) := by
  induction frames generalizing s with
  | nil =>
    rw [List.length_nil, Nat.zero_add, List.map_nil, List.nil_append]
    induction more generalizing s with
    | zero => rfl
    | succ more ih =>
      obtain ⟨hend, hrest⟩ := h.readLine_nil
      have hread : read s = (.error (.line .ended), s.readLine.2) := by
        rw [read, ← Prod.eta s.readLine, hend]
      rw [readings, hread, ih hrest]
      rfl
  | cons f frames ih =>
    obtain ⟨⟨hfits, hreadable⟩, hrest⟩ := List.forall_mem_cons.1 hframes
    obtain ⟨hread, hholds⟩ := read_of_holds h hfits hreadable
    rw [List.length_cons, Nat.add_right_comm, readings, hread, ih hholds hrest]
    rfl

/-- **What was not refused is read, and nothing else.**  Of any log texts and messages that are
written one after the other, each is refused exactly for its own reasons and then leaves the channel
as it is; and reading the whole channel gives those that were not refused, in their order, and then
its end. -/
theorem transcript_faithful {frames : List Frame} (h : ∀ f ∈ frames, f.Readable) :
    let written n := (Line.appendAll "" ((frames.take n).map line)).1
    let results := (Line.appendAll "" (frames.map line)).2
    (∀ (n : Nat) (f : Frame), frames[n]? = some f →
      ∃ result, results[n]? = some result ∧ f.Written (written n) (written (n + 1)) result) ∧
    ∀ more, readings ((accepted frames results).length + more)
        { bytes := (written frames.length).toUTF8 } =
      (accepted frames results).map .ok ++ List.replicate more (.error (.line .ended)) := by
  intro written results
  constructor
  · intro n f hf
    have hline : (frames.map line)[n]? = some f.line := by
      rw [List.getElem?_map, hf]
      rfl
    obtain ⟨hafter, hresult⟩ := Line.appendAll_step hline ""
    rw [← List.map_take, ← List.map_take] at hafter
    rw [← List.map_take] at hresult
    refine ⟨_, hresult, ?_⟩
    dsimp only [written]
    rw [hafter]
    exact written_append f _
  · intro more
    have hall : written frames.length = (Line.appendAll "" (frames.map line)).1 := by
      dsimp only [written]
      rw [List.take_length]
    obtain ⟨hbytes, haccepted⟩ := wire_accepted frames ""
    refine readings_of_holds ?_ (fun f hf => ⟨(haccepted f hf).2, h f (haccepted f hf).1⟩) more
    rw [hall]
    exact ⟨.empty, hbytes, rfl⟩

/-- Log texts around a message, one of which is no line. -/
def interleaved : List Frame :=
  [log "warming up", log "two\nlines", message (.complete 2), log "done"]

theorem readable_complete : (message (.complete 2)).Readable := by
  have hread : (Message.parse? (Message.complete 2).text.toList).any (fun m =>
      m.casesOn (fun _ _ _ => false) (fun _ => false) (fun _ => false) (· == 2)) = true := by
    decide +kernel
  obtain ⟨m, hm, hcount⟩ := (Option.any_eq_true _ _).1 hread
  cases m with
  | hello _ _ _ => cases hcount
  | iteration _ => cases hcount
  | failure _ => cases hcount
  | complete n =>
    cases eq_of_beq hcount
    exact hm

/-- The text that is no line is refused, and the others are read. -/
theorem transcript_faithful_interleaved :
    let (written, results) := Line.appendAll "" (interleaved.map line)
    (∀ f ∈ interleaved, f.Readable) ∧ results = [.ok (), .error .lineBreak, .ok (), .ok ()] ∧
      readings 4 { bytes := written.toUTF8 } = [.ok (log "warming up"),
        .ok (message (.complete 2)), .ok (log "done"), .error (.line .ended)] := by
  have hreadable : ∀ f ∈ interleaved, f.Readable := by
    simp only [interleaved, List.forall_mem_cons, List.not_mem_nil, false_implies, implies_true,
      and_true]
    exact ⟨(by decide : ¬ marker.toList <+: _), (by decide : ¬ marker.toList <+: _),
      readable_complete, (by decide : ¬ marker.toList <+: _)⟩
  have hresults : (Line.appendAll "" (interleaved.map line)).2 =
      [.ok (), .error .lineBreak, .ok (), .ok ()] := by
    have hfirst : Line.Fits (log "warming up").line :=
      ⟨hasBreak_eq_false.2 (by decide), by decide +kernel⟩
    have hbreak : Line.hasBreak (log "two\nlines").line = true := Line.hasBreak_iff.2 (by decide)
    have hmessage : Line.Fits (message (.complete 2)).line :=
      ⟨Message.hasBreak_line _, by decide +kernel⟩
    have hlast : Line.Fits (log "done").line := ⟨hasBreak_eq_false.2 (by decide), by decide +kernel⟩
    simp only [interleaved, List.map_cons, List.map_nil, Line.appendAll_cons,
      Line.append_of_fits hfirst, Line.append_of_break hbreak, Line.append_of_fits hmessage,
      Line.append_of_fits hlast, Line.appendAll]
  have hread := (transcript_faithful hreadable).2 1
  rw [hresults] at hread
  exact ⟨hreadable, hresults, hread⟩

end Frame

end Microbench
