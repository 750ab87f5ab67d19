import Microbench.Proofs.Wire.Stream
import Microbench.Session.Supervisor

/-!
# A supervisor's end of the channel

A supervisor reads messages from the channel and leaves out what is logged between
them.  The reader looks at bytes; what it gives are the messages among the lines, up
to the first line that is no frame.

## Main definitions

* `Frame.messages` — the messages among lines of bytes.
* `Message.Travels` — a message that arrives as it was sent.
* `ByteSource.nextMessage` — the next message, or why there is none.
* `ByteSource.Says` — what is left of a stream are lines with these messages among them.
* `Heard.of`, `Heard.on` — what is heard on a channel, when it is known how the worker ends.

## Main results

* `Frame.messages_lines` — messages that arrive are those among their lines.
* `Holds.nextMessage_log`, `Holds.nextMessage_message`, `Holds.nextMessage_nil` — reading from a
  channel that holds lines of text.
* `Says.next` — reading from a channel that carries any lines.
-/

namespace Microbench

namespace Frame

/-- A line of bytes as a frame, if it is one. -/
def ofBytes? (bytes : ByteArray) : Option Frame :=
  if bytes.size ≤ Line.maxSize then
    match Line.ofBytes bytes with
    | .ok line => ofLine line
    | .error _ => none
  else none

/-- The messages among lines of bytes.  What is logged is left out; `none` stands for a line that is
no frame. -/
def messages : List ByteArray → List (Option Message)
  | [] => []
  | line :: lines =>
    match ofBytes? line with
    | some (.message m) => some m :: messages lines
    | some (.log _) => messages lines
    | none => none :: messages lines

end Frame

/-- A message that arrives as it was sent: its line is not too large, and it is read back. -/
structure Message.Travels (m : Message) : Prop where
  /-- The line is not too large. -/
  small : m.line.utf8ByteSize ≤ Line.maxSize
  /-- The text is read as the message. -/
  readable : Message.parse? m.text.toList = some m

theorem Message.Travels.fits {m : Message} (h : m.Travels) : Line.Fits m.line :=
  ⟨Message.hasBreak_line m, h.small⟩

theorem Message.Travels.ofLine {m : Message} (h : m.Travels) :
    Frame.ofLine m.line = some (.message m) := by
  rw [Frame.ofLine_message, h.readable]
  rfl

/-- Messages that arrive are those among their lines. -/
theorem Frame.messages_lines {ms : List Message} (h : ∀ m ∈ ms, m.Travels) :
    messages (ms.map (·.line.toUTF8)) = ms.map some := by
  induction ms with
  | nil => rfl
  | cons m ms ih =>
    obtain ⟨hm, hms⟩ := List.forall_mem_cons.1 h
    have hsmall : m.line.toUTF8.size ≤ Line.maxSize := hm.small
    have hframe : ofBytes? m.line.toUTF8 = some (.message m) := by
      unfold ofBytes?
      rw [if_pos hsmall, Line.ofBytes_toUTF8 hm.fits.unbroken]
      exact hm.ofLine
    rw [List.map_cons, messages, hframe, ih hms, List.map_cons]

theorem Line.ofBytes_ne_ended (bytes : ByteArray) : Line.ofBytes bytes ≠ .error .ended := by
  unfold Line.ofBytes
  split
  · exact fun h => nomatch h
  · split <;> exact fun h => nomatch h

namespace ByteSource

/-- A frame that is read takes the stream further. -/
theorem read_advances {s : ByteSource} {frame : Frame} (h : (Frame.read s).1 = .ok frame) :
    (Frame.read s).2.left < s.left := by
  unfold Frame.read at h ⊢
  rcases hread : s.readLine with ⟨input, rest⟩
  cases input with
  | error e =>
    rw [hread] at h
    cases h
  | ok line =>
    have hlt := readLine_advances (s := s) (congrArg Prod.fst hread)
    rw [hread] at hlt
    dsimp only
    split <;> exact hlt

/-- The next message, or why there is none; what is logged before it is left out. -/
def nextMessage (s : ByteSource) : Except FrameError Message × ByteSource :=
  match _h : (Frame.read s).1 with
  | .ok (.message m) => (.ok m, (Frame.read s).2)
  | .ok (.log _) => (Frame.read s).2.nextMessage
  | .error e => (.error e, (Frame.read s).2)
termination_by s.left
decreasing_by exact read_advances _h

theorem nextMessage_of_message {s rest : ByteSource} {m : Message}
    (h : Frame.read s = (.ok (.message m), rest)) : s.nextMessage = (.ok m, rest) := by
  rw [nextMessage]
  split <;> simp_all

theorem nextMessage_of_log {s rest : ByteSource} {text : String}
    (h : Frame.read s = (.ok (.log text), rest)) : s.nextMessage = rest.nextMessage := by
  rw [nextMessage]
  split <;> simp_all

theorem nextMessage_of_error {s rest : ByteSource} {e : FrameError}
    (h : Frame.read s = (.error e, rest)) : s.nextMessage = (.error e, rest) := by
  rw [nextMessage]
  split <;> simp_all

/-! ### Channels that hold lines -/

variable {s : ByteSource} {line : String} {lines : List String}

/-- What is logged is left out. -/
theorem Holds.nextMessage_log (h : s.Holds (line :: lines)) (hfits : Line.Fits line)
    (hlog : Frame.ofLine line = some (.log line)) :
    ∃ rest : ByteSource, rest.Holds lines ∧ s.nextMessage = rest.nextMessage := by
  obtain ⟨hline, hrest⟩ := h.readLine_cons hfits
  have hread : Frame.read s = (.ok (.log line), s.readLine.2) := by
    rw [Frame.read, ← Prod.eta s.readLine, hline]
    dsimp only
    rw [hlog]
  exact ⟨s.readLine.2, hrest, nextMessage_of_log hread⟩

/-- A message that can be read is. -/
theorem Holds.nextMessage_message (h : s.Holds (line :: lines)) (hfits : Line.Fits line)
    {m : Message} (hmessage : Frame.ofLine line = some (.message m)) :
    s.nextMessage.1 = .ok m ∧ s.nextMessage.2.Holds lines := by
  obtain ⟨hline, hrest⟩ := h.readLine_cons hfits
  have hread : Frame.read s = (.ok (.message m), s.readLine.2) := by
    rw [Frame.read, ← Prod.eta s.readLine, hline]
    dsimp only
    rw [hmessage]
  rw [nextMessage_of_message hread]
  exact ⟨rfl, hrest⟩

/-- Where nothing is left, nothing is heard. -/
theorem Holds.nextMessage_nil (h : s.Holds []) :
    s.nextMessage.1 = .error (.line .ended) ∧ s.nextMessage.2.Holds [] := by
  obtain ⟨hline, hrest⟩ := h.readLine_nil
  have hread : Frame.read s = (.error (.line .ended), s.readLine.2) := by
    rw [Frame.read, ← Prod.eta s.readLine, hline]
  rw [nextMessage_of_error hread]
  exact ⟨rfl, hrest⟩

/-! ### Channels that carry any lines -/

/-- Lines of any bytes on a stream. -/
def ofLines : List ByteArray → ByteArray
  | [] => .empty
  | line :: lines => line ++ ("\n".toUTF8 ++ ofLines lines)

/-- What is left of a stream are lines with these messages among them. -/
def Says (s : ByteSource) (said : List (Option Message)) : Prop :=
  ∃ (read : ByteArray) (lines : List ByteArray), s.bytes = read ++ ofLines lines ∧
    s.place = read.size ∧ (∀ line ∈ lines, Unbroken line) ∧ Frame.messages lines = said

/-- A line that is a frame is read as one. -/
theorem read_of_frame {s : ByteSource} {read line rest : ByteArray} {frame : Frame}
    (hbytes : s.bytes = read ++ (line ++ ("\n".toUTF8 ++ rest))) (hplace : s.place = read.size)
    (hline : Unbroken line) (h : Frame.ofBytes? line = some frame) :
    Frame.read s = (.ok frame, { s with place := s.place + line.size + 1, asked := true }) := by
  unfold Frame.ofBytes? at h
  by_cases hsmall : line.size ≤ Line.maxSize
  · rw [if_pos hsmall] at h
    unfold Frame.read
    rw [readLine_of_line hbytes hplace hline hsmall]
    cases htext : Line.ofBytes line with
    | error e =>
      rw [htext] at h
      cases h
    | ok text =>
      rw [htext] at h
      dsimp only at h ⊢
      rw [h]
  · rw [if_neg hsmall] at h
    cases h

/-- A line that is no frame is not the end either. -/
theorem read_of_noise {s : ByteSource} {read line rest : ByteArray}
    (hbytes : s.bytes = read ++ (line ++ ("\n".toUTF8 ++ rest))) (hplace : s.place = read.size)
    (hline : Unbroken line) (h : Frame.ofBytes? line = none) :
    ∃ e, e ≠ .line .ended ∧ (Frame.read s).1 = .error e := by
  unfold Frame.ofBytes? at h
  unfold Frame.read
  by_cases hsmall : line.size ≤ Line.maxSize
  · rw [if_pos hsmall] at h
    rw [readLine_of_line hbytes hplace hline hsmall]
    cases htext : Line.ofBytes line with
    | error e =>
      refine ⟨.line e, fun heq => Line.ofBytes_ne_ended line ?_, rfl⟩
      rw [htext, FrameError.line.inj heq]
    | ok text =>
      rw [htext] at h
      dsimp only at h ⊢
      rw [h]
      exact ⟨.unreadable, by decide, rfl⟩
  · obtain ⟨e, hne, hread⟩ := readLine_of_oversized hbytes hplace hline (Nat.lt_of_not_le hsmall)
    rw [← Prod.eta s.readLine, hread]
    exact ⟨.line e, fun heq => hne (FrameError.line.inj heq), rfl⟩

/-- The next thing that is said is heard. -/
theorem Says.next {s : ByteSource} {said : List (Option Message)} (h : s.Says said) :
    (∃ m rest, said = some m :: rest ∧ s.nextMessage.1 = .ok m ∧ s.nextMessage.2.Says rest) ∨
    (∃ e rest, said = none :: rest ∧ e ≠ .line .ended ∧ s.nextMessage.1 = .error e) ∨
    (said = [] ∧ s.nextMessage.1 = .error (.line .ended)) := by
  obtain ⟨read, lines, hbytes, hplace, hlines, hsaid⟩ := h
  induction lines generalizing s read with
  | nil =>
    refine .inr (.inr ⟨hsaid.symm, ?_⟩)
    exact (Holds.nextMessage_nil ⟨read, hbytes, hplace⟩).1
  | cons line lines ih =>
    have hline := hlines line List.mem_cons_self
    have hrest := fun l hl => hlines l (List.mem_cons_of_mem _ hl)
    have hsize : (line ++ "\n".toUTF8).size = line.size + 1 := ByteArray.size_append
    -- what is read is behind the reader, with its end
    have hbytes' : s.bytes = read ++ (line ++ "\n".toUTF8) ++ ofLines lines := by
      rw [hbytes, ofLines, ByteArray.append_assoc, ByteArray.append_assoc]
    have hplace' : s.place + line.size + 1 = (read ++ (line ++ "\n".toUTF8)).size := by
      rw [ByteArray.size_append, hsize, hplace, Nat.add_assoc]
    cases hframe : Frame.ofBytes? line with
    | none =>
      obtain ⟨e, hne, hread⟩ := read_of_noise hbytes hplace hline hframe
      rw [Frame.messages, hframe] at hsaid
      refine .inr (.inl ⟨e, _, hsaid.symm, hne, ?_⟩)
      rw [nextMessage_of_error (Prod.ext hread rfl)]
    | some frame =>
      have hread := read_of_frame hbytes hplace hline hframe
      rw [Frame.messages, hframe] at hsaid
      cases frame with
      | message m =>
        rw [nextMessage_of_message hread]
        exact .inl ⟨m, _, hsaid.symm, rfl, _, lines, hbytes', hplace', hrest, rfl⟩
      | log text =>
        rw [nextMessage_of_log hread]
        exact ih _ hbytes' hplace' hrest hsaid

theorem Says.next_message {s : ByteSource} {m : Message} {rest : List (Option Message)}
    (h : s.Says (some m :: rest)) : s.nextMessage.1 = .ok m ∧ s.nextMessage.2.Says rest := by
  rcases h.next with ⟨_, _, hsaid, hnext, hrest⟩ | ⟨_, _, hsaid, _⟩ | ⟨hsaid, _⟩
  · cases hsaid
    exact ⟨hnext, hrest⟩
  · cases hsaid
  · cases hsaid

end ByteSource

/-- What a reading of the channel means, when it is known how the worker ends: a worker that does
not end is silent once it has nothing more to say. -/
def Heard.of (status : Option ExitStatus) : Except FrameError Message → Heard
  | .ok m => .message m
  | .error (.line .ended) =>
    match status with
    | some status => .closed (some status)
    | none => .silence
  | .error e => .noise e

/-- What is heard on a channel, and what is left of it. -/
def Heard.on (status : Option ExitStatus) (s : ByteSource) : Heard × ByteSource :=
  (.of status s.nextMessage.1, s.nextMessage.2)

end Microbench
