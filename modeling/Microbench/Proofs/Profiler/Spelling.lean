import Microbench.Profiler.Sample
import Microbench.Proofs.Number.Decimal
import Microbench.Proofs.Number.Hexadecimal
import Microbench.Proofs.Text.Slices

/-!
# Lines that write a sample

A sample can be written in many lines: a thread may follow the process, the address may be marked
as hexadecimal, and any blanks may stand around the columns and between them.  All of these lines
are read as the sample.  The function may hold blanks and brackets, for it ends at the last
bracket with a space before it; this bracket is found by its position, and whatever the line, all
positions at which it is cut are between two characters.

## Main definitions

* `Sample.Spelling`, `Spelling.line` — a line that writes a sample.
* `Sample.sliceSymbol?`, `Sample.parseSliced?` — a line read with its last column cut by positions.

## Main results

* `Sample.parse_line` — a line is read as the sample that it writes.
* `Sample.sliceSymbol?_eq` — all positions can be cut at.
* `Sample.parse_readsBack` — **lines are read as they are written**, and cut where they can be.
-/

namespace Microbench.Sample

open String (utf8Len)
open Text (Blank Word Tight Gap isBlank)

variable {cs before after symbol image blanks : List Char}

/-! ### The last opening -/

/-- What an image that stands behind a function opens with. -/
def opening : List Char := [' ', '(']

theorem opening_notInfix_bracket (h : ¬ opening <:+: cs) : ¬ opening <:+: '(' :: cs := by
  rw [List.infix_cons_iff, not_or]
  exact ⟨by simp [opening], h⟩

theorem opening_notInfix_concat (h : ¬ opening <:+: cs) : ¬ opening <:+: cs ++ [')'] := by
  rw [List.infix_concat_iff, not_or]
  refine ⟨fun hsuffix => ?_, h⟩
  have hlast := hsuffix.getLast (List.cons_ne_nil _ _)
  rw [List.getLast_concat] at hlast
  exact absurd hlast (by decide)

theorem cutLastOpening_of_some {c : Char} (h : cutLastOpening cs = some (before, after)) :
    cutLastOpening (c :: cs) = some (c :: before, after) := by
  rw [cutLastOpening.eq_def]
  simp only [h]

theorem cutLastOpening_of_none {c : Char} (h : cutLastOpening cs = none) :
    cutLastOpening (c :: cs) = if opening <+: c :: cs then some ([], cs.tail) else none := by
  rw [cutLastOpening.eq_def]
  simp only [h]
  split
  · simp [opening]
  · next hne =>
    rw [if_neg]
    rintro ⟨after, hafter⟩
    obtain ⟨rfl, rfl⟩ := List.cons.inj hafter
    exact hne after rfl rfl

theorem cutLastOpening_eq_none_iff : cutLastOpening cs = none ↔ ¬ opening <:+: cs := by
  induction cs with
  | nil => exact iff_of_true rfl (by simp [opening])
  | cons c cs ih =>
    rw [List.infix_cons_iff, not_or, ← ih]
    cases h : cutLastOpening cs with
    | some parts => simp [cutLastOpening_of_some h]
    | none => simp [cutLastOpening_of_none h]

theorem cutLastOpening_append (h : ¬ opening <:+: after) :
    cutLastOpening (before ++ ' ' :: '(' :: after) = some (before, after) := by
  induction before with
  | nil =>
    have hnone := cutLastOpening_eq_none_iff.2 (opening_notInfix_bracket h)
    rw [List.nil_append, cutLastOpening_of_none hnone]
    simp [opening]
  | cons c before ih => exact cutLastOpening_of_some ih

/-- A function is cut from the image after it. -/
theorem splitSymbol_append (hsymbol : Tight symbol) (hblanks : Blank blanks)
    (himage : ¬ opening <:+: image) :
    splitSymbol (symbol ++ blanks ++ ' ' :: '(' :: (image ++ [')'])) = (symbol, image) := by
  unfold splitSymbol
  rw [cutLastOpening_append (opening_notInfix_concat himage)]
  simp [Text.trim_append_blank hsymbol hblanks]

/-- An image may stand alone. -/
theorem splitSymbol_bracket (himage : ¬ opening <:+: image) :
    splitSymbol ('(' :: (image ++ [')'])) = ([], image) := by
  have hnone := cutLastOpening_eq_none_iff.2
    (opening_notInfix_bracket (opening_notInfix_concat himage))
  unfold splitSymbol
  rw [hnone]
  simp [Text.trim, Text.trimStart, Text.trimEnd]

theorem dropColon_concat (word : List Char) : dropColon (word ++ [':']) = some word := by
  simp [dropColon]

theorem dropHexMarks_of_notMem (h : 'x' ∉ cs) : dropHexMarks cs = cs := by
  unfold dropHexMarks
  split
  · exact absurd (by simp) h
  · rfl

theorem word_toDigits (n : Nat) : Word (Nat.toDigits 10 n) := by
  intro c hc
  have hdigit : c.isDigit = true := Whole.isDigit_of_mem_digits hc
  refine Decimal.isBlank_of_isDigit ?_
  simpa [Decimal.isDigit, Char.isDigit, UInt32.le_iff_toNat_le] using hdigit

/-! ### Lines that write a sample -/

/-- A line that writes a sample: how its numbers are spelled, and what stands around its columns
and between them. -/
structure Spelling (s : Sample) where
  /-- What follows the process behind a slash. -/
  thread : Option (List Char)
  /-- The time. -/
  time : List Char
  /-- Whether the address is marked as hexadecimal. -/
  marked : Bool
  /-- Whether its letters are capitals. -/
  upper : Bool
  /-- How many zeros stand in front of it. -/
  zeros : Nat
  before : List Char
  afterProcess : Gap
  afterTime : Gap
  afterEvent : Gap
  afterAddress : Gap
  beforeImage : List Char
  after : List Char
  pid_le : s.pid ≤ Whole.max32
  thread_word : ∀ t ∈ thread, Word t
  read_time : Decimal.read time = .ok s.time
  event_word : Word s.event.toList
  address_le : s.address ≤ Whole.max64
  symbol_tight : Tight s.symbol.toList
  /-- The bracket around the image has a space directly before it, if it is to be told from the
  function. -/
  opening_space : s.symbol ≠ "" → beforeImage.getLast? = some ' '
  image_plain : ¬ opening <:+: s.image.toList
  beforeImage_blank : Blank beforeImage
  before_blank : Blank before
  after_blank : Blank after

namespace Spelling

variable {s : Sample} (w : Spelling s)

/-- The first column. -/
def process : List Char := Nat.toDigits 10 s.pid ++ w.thread.elim [] ('/' :: ·)

/-- The column of the address. -/
def address : List Char :=
  (if w.marked then ['0', 'x'] else []) ++ Whole.hexText w.upper w.zeros s.address

/-- The last column, with the image. -/
def place : List Char :=
  s.symbol.toList ++ w.beforeImage ++ '(' :: (s.image.toList ++ [')'])

/-- The columns from the address on. -/
def fromAddress : List Char := w.address ++ (w.afterAddress.chars ++ w.place)

/-- The columns from the event on. -/
def fromEvent : List Char := s.event.toList ++ [':'] ++ (w.afterEvent.chars ++ w.fromAddress)

/-- The columns from the time on. -/
def fromTime : List Char := w.time ++ [':'] ++ (w.afterTime.chars ++ w.fromEvent)

/-- The columns. -/
def columns : List Char := w.process ++ (w.afterProcess.chars ++ w.fromTime)

/-- The line. -/
def line : String := String.ofList (w.before ++ w.columns ++ w.after)

/-! ### Column by column -/

theorem word_process : Word w.process := by
  refine (word_toDigits s.pid).append ?_
  cases hthread : w.thread with
  | none => exact nofun
  | some t => exact List.forall_mem_cons.2 ⟨by decide, w.thread_word t hthread⟩

theorem process_ne_nil : w.process ≠ [] :=
  List.append_ne_nil_of_left_ne_nil Nat.toDigits_ne_nil _

theorem takeWhile_process : w.process.takeWhile (· != '/') = Nat.toDigits 10 s.pid := by
  have hdigits : ∀ c ∈ Nat.toDigits 10 s.pid, (c != '/') = true := by
    intro c hc
    rw [bne_iff_ne]
    rintro rfl
    exact absurd (Whole.isDigit_of_mem_digits hc) (by decide)
  rw [process, List.takeWhile_append_of_pos hdigits]
  cases w.thread <;> simp

theorem readNat_process :
    Whole.readNat 10 Whole.max32 (w.process.takeWhile (· != '/')) = .ok s.pid := by
  rw [w.takeWhile_process, Whole.readNat_toDigits, if_pos w.pid_le]

theorem word_address : Word w.address := by
  refine Word.append ?_ Whole.word_hexText
  split <;> decide

theorem address_ne_nil : w.address ≠ [] :=
  List.append_ne_nil_of_right_ne_nil _ Whole.hexText_ne_nil

theorem dropHexMarks_address :
    dropHexMarks w.address = Whole.hexText w.upper w.zeros s.address := by
  have hplain : 'x' ∉ Whole.hexText w.upper w.zeros s.address :=
    fun hx => (Whole.plain_of_mem_hexText hx).2.2.1 rfl
  rw [address]
  cases w.marked with
  | false => exact dropHexMarks_of_notMem hplain
  | true => exact dropHexMarks_of_notMem hplain

theorem readNat_address :
    Whole.readNat 16 Whole.max64 (dropHexMarks w.address) = .ok s.address := by
  rw [w.dropHexMarks_address, Whole.readNat_hexText w.address_le]

theorem place_eq : w.place =
    s.symbol.toList ++ (w.beforeImage ++ '(' :: s.image.toList) ++ [')'] := by
  simp [place]

/-- The columns start with the process and end with the bracket behind the image. -/
theorem tight_columns : Tight w.columns := by
  have hcolumns : w.columns = w.process ++ (w.afterProcess.chars ++ (w.time ++ [':'] ++
      (w.afterTime.chars ++ (s.event.toList ++ [':'] ++ (w.afterEvent.chars ++ (w.address ++
        (w.afterAddress.chars ++ (s.symbol.toList ++
          (w.beforeImage ++ '(' :: s.image.toList))))))))) ++ [')'] := by
    simp only [columns, fromTime, fromEvent, fromAddress, place_eq, List.append_assoc]
  rw [hcolumns]
  refine Text.tight_concat ?_ (by decide)
  rw [List.append_assoc]
  exact w.word_process.head_append w.process_ne_nil

/-- The function and the image, whatever blanks stand before them. -/
theorem splitSymbol_place {blanks : List Char} (hblanks : Blank blanks) :
    splitSymbol (Text.trim (blanks ++ w.place)) = (s.symbol.toList, s.image.toList) := by
  obtain hsymbol | hsymbol := eq_or_ne s.symbol.toList []
  · have htight : Tight ('(' :: s.image.toList ++ [')']) :=
      Text.tight_concat (fun c hc => Option.some.inj hc ▸ (by decide)) (by decide)
    have hbefore : Blank (blanks ++ w.beforeImage) :=
      List.forall_mem_append.2 ⟨hblanks, w.beforeImage_blank⟩
    have htrim := Text.trim_append hbefore htight
    rw [List.append_assoc] at htrim
    rw [place, hsymbol, List.nil_append, ← List.cons_append, htrim, List.cons_append,
      splitSymbol_bracket w.image_plain]
  · have hhead : ∀ c ∈ w.place.head?, isBlank c = false := by
      rw [place_eq, List.append_assoc, List.head?_append_of_ne_nil _ hsymbol]
      exact w.symbol_tight.head
    have htight : Tight w.place := by
      rw [place_eq] at hhead ⊢
      exact Text.tight_concat hhead (by decide)
    have hspace : s.symbol ≠ "" := by
      rintro h
      exact hsymbol (h ▸ rfl)
    obtain ⟨more, hmore⟩ := List.getLast?_eq_some_iff.1 (w.opening_space hspace)
    have hblank : Blank more :=
      fun c hc => w.beforeImage_blank c (hmore ▸ List.mem_append_left _ hc)
    rw [Text.trim_append hblanks htight, place, hmore, ← List.append_assoc,
      List.append_assoc _ [' '], List.singleton_append,
      splitSymbol_append w.symbol_tight hblank w.image_plain]

end Spelling

/-- A line is read as the sample that it writes. -/
theorem parse_line {s : Sample} (w : Spelling s) : parse w.line = some s := by
  have htrim : Text.trim w.line.toList = w.columns := by
    rw [Spelling.line, String.toList_ofList]
    exact Text.trim_padded w.before_blank w.after_blank w.tight_columns
  have htimeWord : Word (w.time ++ [':']) :=
    (Decimal.word_of_read w.read_time).append (by decide)
  have heventWord : Word (s.event.toList ++ [':']) := w.event_word.append (by decide)
  obtain ⟨_, hblanks₁, hprocess⟩ := Text.cutBlank_gap w.word_process w.afterProcess w.fromTime
  obtain ⟨_, hblanks₂, htime⟩ :=
    Text.cutBlank_trimStart hblanks₁ htimeWord (by simp) w.afterTime w.fromEvent
  obtain ⟨_, hblanks₃, hevent⟩ :=
    Text.cutBlank_trimStart hblanks₂ heventWord (by simp) w.afterEvent w.fromAddress
  obtain ⟨_, hblanks₄, haddress⟩ :=
    Text.cutBlank_trimStart hblanks₃ w.word_address w.address_ne_nil w.afterAddress w.place
  rw [← Spelling.columns] at hprocess
  rw [← Spelling.fromTime] at htime
  rw [← Spelling.fromEvent] at hevent
  rw [← Spelling.fromAddress] at haddress
  rw [parse, htrim, hprocess]
  simp only [Option.bind_eq_bind, Option.bind_some, Option.pure_def, Option.getD_some,
    Except.toOption, w.readNat_process, htime, dropColon_concat, w.read_time, hevent, haddress,
    w.readNat_address, w.splitSymbol_place hblanks₄, String.ofList_toList]

/-! ### Cut by positions -/

/-- The position of the last opening of an image, in bytes. -/
def lastOpening? : List Char → Option Nat
  | [] => none
  | c :: cs =>
    match lastOpening? cs with
    | some i => some (i + c.utf8Size)
    | none => if opening <+: c :: cs then some 0 else none

/-- The function, which ends at one position, and the image, which starts at another and ends
before the last bracket; if there is no such bracket, all is the function. -/
def sliceFrom? (rest : List Char) (stop start : Nat) : Option (List Char × List Char) :=
  if rest.getLast? = some ')' then do
    let symbol ← Text.slice? rest 0 stop
    let image ← Text.slice? rest start (utf8Len rest - 1)
    return (Text.trim symbol, image)
  else some (rest, [])

/-- The function and the image, cut out by positions in bytes: nothing if one of these is out of
range or inside of a character. -/
def sliceSymbol? (rest : List Char) : Option (List Char × List Char) :=
  let bracket := if rest.head? = some '(' then some 0 else none
  match (lastOpening? rest).or bracket with
  | none => some (rest, [])
  | some i => sliceFrom? rest i (if i = 0 ∧ rest.head? = some '(' then 1 else i + 2)

theorem lastOpening?_of_none (h : cutLastOpening cs = none) : lastOpening? cs = none := by
  induction cs with
  | nil => rfl
  | cons c cs ih =>
    rw [cutLastOpening_eq_none_iff, List.infix_cons_iff, not_or] at h
    rw [lastOpening?, ih (cutLastOpening_eq_none_iff.2 h.2), if_neg h.1]

theorem lastOpening?_of_some (h : cutLastOpening cs = some (before, after)) :
    cs = before ++ opening ++ after ∧ lastOpening? cs = some (utf8Len before) := by
  induction cs generalizing before with
  | nil => cases h
  | cons c cs ih =>
    cases hcut : cutLastOpening cs with
    | some parts =>
      rw [cutLastOpening_of_some hcut] at h
      cases h
      obtain ⟨hcs, hlast⟩ := ih hcut
      refine ⟨congrArg (c :: ·) hcs, ?_⟩
      rw [lastOpening?, hlast, String.utf8Len_cons]
    | none =>
      rw [cutLastOpening_of_none hcut] at h
      split at h
      · next hprefix =>
        cases h
        obtain ⟨more, hmore⟩ := hprefix
        obtain ⟨rfl, rfl⟩ := List.cons.inj hmore
        refine ⟨rfl, ?_⟩
        rw [lastOpening?, lastOpening?_of_none hcut, if_pos ⟨more, rfl⟩]
        rfl
      · cases h

/-- What follows a bracket, with the bracket at its end or without. -/
theorem sliceFrom?_append {name front : List Char} (hfront : front.getLast? = some '(')
    (hname : Text.slice? (front ++ after) 0 (utf8Len name) = some name) :
    sliceFrom? (front ++ after) (utf8Len name) (utf8Len front) =
      some (match after.reverse with
        | ')' :: image => (Text.trim name, image.reverse)
        | _ => (front ++ after, [])) := by
  obtain rfl | ⟨image, c, rfl⟩ := after.eq_nil_or_concat'
  · rw [sliceFrom?, List.append_nil, hfront, if_neg (by decide)]
    rfl
  · rw [sliceFrom?, List.reverse_concat, ← List.append_assoc, List.getLast?_concat]
    rw [← List.append_assoc] at hname
    by_cases hc : c = ')'
    · subst hc
      have hlen : utf8Len (front ++ image ++ [')']) - 1 = utf8Len front + utf8Len image := by
        rw [String.utf8Len_append, String.utf8Len_append]
        rfl
      rw [if_pos rfl, hname, hlen, Text.slice?_append]
      simp
    · rw [if_neg (by simpa using hc)]
      split
      · next h => exact absurd (List.cons.inj h).1 hc
      · rfl

/-- Whatever is left of a line after the address, all positions at which it is cut are within it
and between characters, and the parts are those that are read. -/
theorem sliceSymbol?_eq (rest : List Char) : sliceSymbol? rest = some (splitSymbol rest) := by
  cases hcut : cutLastOpening rest with
  | some parts =>
    obtain ⟨before, after⟩ := parts
    obtain ⟨hrest, hlast⟩ := lastOpening?_of_some hcut
    -- a bracket at the very start is no opening, for it has no space before it
    have hstart : ¬ (utf8Len before = 0 ∧ rest.head? = some '(') := by
      rintro ⟨hzero, hhead⟩
      rw [hrest, String.utf8Len_eq_zero.1 hzero] at hhead
      exact absurd (Option.some.inj hhead) (by decide)
    have hname : Text.slice? (before ++ opening ++ after) 0 (utf8Len before) = some before := by
      have h := Text.slice?_append [] before (opening ++ after)
      rwa [List.nil_append, ← List.append_assoc, String.utf8Len_nil, Nat.zero_add] at h
    have hlen : utf8Len before + 2 = utf8Len (before ++ opening) := String.utf8Len_append _ _ ▸ rfl
    have hsplit : splitSymbol rest = match after.reverse with
        | ')' :: image => (Text.trim before, image.reverse)
        | _ => (rest, []) := by
      unfold splitSymbol
      rewrite [hcut]
      rfl
    rw [sliceSymbol?, hlast, Option.some_or]
    dsimp only
    rw [if_neg hstart, hlen, hsplit, hrest]
    exact sliceFrom?_append (by simp [opening]) hname
  | none =>
    unfold splitSymbol
    rw [sliceSymbol?, lastOpening?_of_none hcut, Option.none_or, hcut]
    cases rest with
    | nil => rfl
    | cons c after =>
      by_cases hc : c = '('
      · subst hc
        have hname : Text.slice? (['('] ++ after) 0 (utf8Len []) = some [] :=
          Text.slice?_append [] [] ('(' :: after)
        have hslice := sliceFrom?_append rfl hname
        exact hslice
      · have hhead : (c :: after).head? ≠ some '(' := fun h => hc (Option.some.inj h)
        rw [if_neg hhead]
        dsimp only
        split <;> simp_all

/-- A step that cuts nothing at a position. -/
def plainStep {α : Type} (a : Option α) : OptionT Option α := OptionT.mk (some a)

theorem run_plainStep_bind {α β : Type} (a : Option α) {f : α → OptionT Option β}
    {g : α → Option β} (h : ∀ x, (f x).run = some (g x)) :
    (plainStep a >>= f).run = some (a >>= g) := by
  cases a with
  | none => rfl
  | some x => exact h x

/-- A line as a sample, if it is one; nothing if it is cut at a position that is out of range or
inside of a character. -/
def parseSliced? (line : String) : Option (Option Sample) := OptionT.run do
  let (process, rest) ← plainStep (Text.cutBlank (Text.trim line.toList))
  let pid ← plainStep (Whole.readNat 10 Whole.max32 (process.takeWhile (· != '/'))).toOption
  let (time, rest) ← plainStep (Text.cutBlank (Text.trimStart rest))
  let time ← plainStep (dropColon time)
  let time ← plainStep (Decimal.read time).toOption
  let (event, rest) ← plainStep (Text.cutBlank (Text.trimStart rest))
  let event ← plainStep (dropColon event)
  let rest := Text.trimStart rest
  let (address, rest) := (Text.cutBlank rest).getD (rest, [])
  let address ← plainStep (Whole.readNat 16 Whole.max64 (dropHexMarks address)).toOption
  let (symbol, image) ← OptionT.lift (sliceSymbol? (Text.trim rest))
  return ⟨pid, time, String.ofList event, address, String.ofList symbol, String.ofList image⟩

/-- Whatever the line, it can be cut at all these positions, and is read as it is. -/
theorem parseSliced?_eq (line : String) : parseSliced? line = some (parse line) := by
  unfold parseSliced? parse
  refine run_plainStep_bind _ fun (process, rest) => ?_
  refine run_plainStep_bind _ fun pid => ?_
  refine run_plainStep_bind _ fun (time, rest) => ?_
  refine run_plainStep_bind _ fun time => ?_
  refine run_plainStep_bind _ fun time => ?_
  refine run_plainStep_bind _ fun (event, rest) => ?_
  refine run_plainStep_bind _ fun event => ?_
  refine run_plainStep_bind _ fun address => ?_
  rw [sliceSymbol?_eq]
  rfl

/-- **Lines are read as they are written.**  Every line that writes a sample is read as this sample,
however its numbers are spelled and whatever blanks stand around its columns.  No line, whatever it
holds, is cut at a position that is out of range or inside of a character. -/
theorem parse_readsBack :
    (∀ (s : Sample) (w : Spelling s), parse w.line = some s) ∧
      ∀ line, parseSliced? line = some (parse line) :=
  ⟨fun _ w => parse_line w, parseSliced?_eq⟩

/-- A function with brackets in its name, in an image with an accent and a bracket in its own. -/
def overloaded : Sample :=
  ⟨4242, 18233.104511, "cycles:u", 0x7f3a2b1c4d5e, "Pool::operator() (int) const", "/opt/é)/worker"⟩

/-- It is written with a thread, a tabulator, zeros and capitals. -/
def overloadedSpelling : Spelling overloaded where
  thread := some "4243".toList
  time := "18233.104511".toList
  marked := true
  upper := true
  zeros := 2
  before := [' ', ' ']
  afterProcess := ⟨['\t'], by decide, by decide⟩
  afterTime := .space
  afterEvent := ⟨[' ', ' '], by decide, by decide⟩
  afterAddress := .space
  beforeImage := [' ', ' ']
  after := ['\r']
  pid_le := by decide
  thread_word := by decide
  read_time := by rfl
  event_word := by decide +kernel
  address_le := by decide
  symbol_tight := by decide +kernel
  opening_space _ := rfl
  image_plain := by decide +kernel
  beforeImage_blank := by decide
  before_blank := by decide
  after_blank := by decide

theorem parse_readsBack_overloaded :
    parse ("  4242/4243\t18233.104511: cycles:u:  0x007F3A2B1C4D5E " ++
      "Pool::operator() (int) const  (/opt/é)/worker)\r") = some overloaded :=
  parse_readsBack.1 overloaded overloadedSpelling

end Microbench.Sample
