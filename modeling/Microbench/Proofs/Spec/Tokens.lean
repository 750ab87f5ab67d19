import Microbench.Spec.Token

/-!
# Tokens read back

Every list of tokens in which texts are not empty and do not touch each other has
a line, and that line is cut into these tokens again.  The line holds no line
break, whatever the texts hold.

## Main definitions

* `Token.chars`, `Token.line` — how tokens stand in a line.
* `Token.Normal` — the lists of tokens that a line can be cut into.

## Main results

* `scan_line` — **a line is cut into the tokens that it was made of.**
* `split_intercalate` — tokens put together with a sentinel are split at it again.
* `not_break_mem_line` — no line break stands in a line.
-/

namespace Microbench.Spec

/-! ### Sentinels -/

namespace Sentinel

/-- What starts with a sentinel starts with no other. -/
theorem startOf?_chars_append (s : Sentinel) (rest : List Char) :
    startOf? (s.chars ++ rest) = some s := by
  cases s <;> simp [startOf?, all, chars, fence, word, List.find?, List.isPrefixOf]

/-- No line break stands in a sentinel. -/
theorem not_break_mem_chars (s : Sentinel) {c : Char} (hc : c = '\n' ∨ c = '\r') :
    c ∉ s.chars := by
  rcases hc with rfl | rfl <;> cases s <;> decide

/-- A sentinel starts with an equals sign. -/
theorem chars_eq_cons (s : Sentinel) : s.chars = '=' :: s.chars.drop 1 := by
  cases s <;> rfl

end Sentinel

/-! ### Escaped text -/

/-- A character stands for itself, or as a backslash and a letter that stands for it. -/
theorem escapeChar_cases (c : Char) :
    (escapeChar c = [c] ∧ c ≠ '=' ∧ c ≠ '\\' ∧ c ≠ '\n' ∧ c ≠ '\r') ∨
    ∃ e, escapeChar c = ['\\', e] ∧ unescape? e = some c ∧ e ≠ '\n' ∧ e ≠ '\r' := by
  by_cases hb : c = '\\'
  · exact .inr ⟨'\\', by simp [escapeChar, hb], by simp [unescape?, hb], by decide, by decide⟩
  by_cases hq : c = '='
  · exact .inr ⟨'q', by simp [escapeChar, hq], by simp [unescape?, hq], by decide, by decide⟩
  by_cases hn : c = '\n'
  · exact .inr ⟨'n', by simp [escapeChar, hn], by simp [unescape?, hn], by decide, by decide⟩
  by_cases hr : c = '\r'
  · exact .inr ⟨'r', by simp [escapeChar, hr], by simp [unescape?, hr], by decide, by decide⟩
  · exact .inl ⟨by simp [escapeChar, hb, hq, hn, hr], hq, hb, hn, hr⟩

/-- No line break stands in an escaped text. -/
theorem not_break_mem_escape {cs : List Char} {c : Char} (hc : c = '\n' ∨ c = '\r') :
    c ∉ escape cs := by
  rw [escape, List.mem_flatMap]
  rintro ⟨x, -, hx⟩
  rcases escapeChar_cases x with ⟨h, -, -, hn, hr⟩ | ⟨e, h, -, hn, hr⟩
  · rw [h, List.mem_singleton] at hx
    rcases hc with rfl | rfl
    · exact hn hx.symm
    · exact hr hx.symm
  · rw [h] at hx
    rcases hc with rfl | rfl <;> simp [Ne.symm hn, Ne.symm hr] at hx

namespace Token

/-! ### Single steps of the scanner -/

theorem scanFrom_plain (place : Nat) (pending : List Char) {c : Char} (hq : c ≠ '=')
    (hb : c ≠ '\\') (rest : List Char) :
    scanFrom place pending (c :: rest) = scanFrom (place + c.utf8Size) (c :: pending) rest := by
  rw [scanFrom]
  · exact hq
  · rintro rfl; exact absurd rfl hb
  · rintro e cs rfl; exact absurd rfl hb

theorem scanFrom_escape (place : Nat) (pending : List Char) {e c : Char}
    (he : unescape? e = some c) (rest : List Char) :
    scanFrom place pending ('\\' :: e :: rest) = scanFrom (place + 2) (c :: pending) rest := by
  rw [scanFrom, he]

theorem scanFrom_mark (place : Nat) (pending : List Char) (s : Sentinel) (rest : List Char) :
    scanFrom place pending (s.chars ++ rest) =
      (scanFrom (place + s.chars.length) [] rest).map fun ts => flush pending ++ mark s :: ts := by
  have hstart := s.startOf?_chars_append rest
  rw [s.chars_eq_cons, List.cons_append] at hstart ⊢
  rw [scanFrom, hstart]
  have hdrop : (s.chars.drop 1 ++ rest).drop (s.chars.length - 1) = rest := by
    rw [List.drop_append_of_le_length (by simp), List.drop_eq_nil_of_le (by simp), List.nil_append]
  simp only [hdrop, ← s.chars_eq_cons]
  rfl

/-- Reading an escaped text collects that text. -/
theorem scanFrom_escaped (place : Nat) (pending cs rest : List Char) :
    ∃ place', scanFrom place pending (escape cs ++ rest) =
      scanFrom place' (cs.reverse ++ pending) rest := by
  induction cs generalizing place pending with
  | nil => exact ⟨place, rfl⟩
  | cons c cs ih =>
    have hsplit : escape (c :: cs) ++ rest = escapeChar c ++ (escape cs ++ rest) := by
      simp [escape, List.append_assoc]
    -- one character of the text is one step of the scanner, escaped or not
    have hstep : ∃ place', scanFrom place pending (escapeChar c ++ (escape cs ++ rest)) =
        scanFrom place' (c :: pending) (escape cs ++ rest) := by
      rcases escapeChar_cases c with ⟨h, hq, hb, -⟩ | ⟨e, h, he, -⟩
      · exact ⟨_, by rw [h]; exact scanFrom_plain place pending hq hb _⟩
      · exact ⟨_, by rw [h]; exact scanFrom_escape place pending he _⟩
    obtain ⟨place₁, h₁⟩ := hstep
    obtain ⟨place₂, h₂⟩ := ih place₁ (c :: pending)
    refine ⟨place₂, ?_⟩
    rw [hsplit, h₁, h₂, List.reverse_cons, List.append_assoc]
    rfl

/-! ### Lines of tokens -/

/-- How a token stands in a line. -/
def chars : Token → List Char
  | text cs => escape cs
  | mark s => s.chars

/-- How tokens stand in a line. -/
def line (ts : List Token) : List Char := ts.flatMap chars

@[simp] theorem line_nil : line [] = [] := rfl

@[simp] theorem line_cons (t : Token) (ts : List Token) : line (t :: ts) = t.chars ++ line ts := rfl

@[simp] theorem line_append (ts us : List Token) : line (ts ++ us) = line ts ++ line us :=
  List.flatMap_append

/-- Whether tokens start with a text. -/
def startsWithText : List Token → Bool
  | text _ :: _ => true
  | _ => false

/-- Tokens that a line can be cut into: no text is empty, and none follows another. -/
def Normal : List Token → Prop
  | [] => True
  | text cs :: ts => cs ≠ [] ∧ startsWithText ts = false ∧ Normal ts
  | mark _ :: ts => Normal ts

/-- Tokens stay normal when a sentinel and more tokens follow. -/
theorem Normal.append_mark {ts us : List Token} {s : Sentinel} (hts : Normal ts)
    (hus : Normal us) : Normal (ts ++ mark s :: us) := by
  induction ts with
  | nil => exact hus
  | cons t ts ih =>
    cases t with
    | mark s' => exact ih hts
    | text cs =>
      obtain ⟨hne, hstart, hts⟩ := hts
      refine ⟨hne, ?_, ih hts⟩
      cases ts with
      | nil => rfl
      | cons t' ts =>
        cases t' with
        | mark s' => rfl
        | text cs' => exact absurd hstart (by simp [startsWithText])

/-- Scanning tokens with a text collected before them, which must not touch another text. -/
theorem scanFrom_line {ts : List Token} (hts : Normal ts) (place : Nat) (pending : List Char)
    (hpending : pending = [] ∨ startsWithText ts = false) :
    scanFrom place pending (line ts) = .ok (flush pending ++ ts) := by
  induction ts generalizing place pending with
  | nil => simp [scanFrom]
  | cons t ts ih =>
    cases t with
    | mark s =>
      rw [line_cons]
      show scanFrom place pending (s.chars ++ line ts) = _
      rw [scanFrom_mark, ih hts _ [] (.inl rfl)]
      rfl
    | text cs =>
      -- a text follows, so nothing can have been collected before it
      obtain ⟨hne, hstart, hts⟩ := hts
      have hnil : pending = [] := by
        rcases hpending with h | h
        · exact h
        · exact absurd h (by simp [startsWithText])
      subst hnil
      rw [line_cons]
      show scanFrom place [] (escape cs ++ line ts) = _
      obtain ⟨place', h⟩ := scanFrom_escaped place [] cs (line ts)
      rw [h, List.append_nil, ih hts place' cs.reverse (.inr hstart)]
      simp [flush, hne]

/-- **A line is cut into the tokens that it was made of.** -/
theorem scan_line {ts : List Token} (hts : Normal ts) : scan (line ts) = .ok ts := by
  rw [scan, scanFrom_line hts 0 [] (.inl rfl)]
  rfl

/-- No line break stands in a line. -/
theorem not_break_mem_line {ts : List Token} {c : Char} (hc : c = '\n' ∨ c = '\r') :
    c ∉ line ts := by
  rw [line, List.mem_flatMap]
  rintro ⟨t, -, ht⟩
  cases t with
  | text cs => exact not_break_mem_escape hc ht
  | mark s => exact s.not_break_mem_chars hc ht

/-! ### Cutting at a sentinel -/

/-- Tokens without the sentinel are one part. -/
theorem split_of_not_mem {s : Sentinel} {ts : List Token} (h : mark s ∉ ts) :
    split s ts = [ts] := by
  induction ts with
  | nil => rfl
  | cons t ts ih =>
    rw [List.mem_cons, not_or] at h
    rw [split, ih h.2]
    simp [Ne.symm h.1]

/-- The part before a sentinel is cut off. -/
theorem split_append_mark {s : Sentinel} {ts : List Token} (h : mark s ∉ ts) (us : List Token) :
    split s (ts ++ mark s :: us) = ts :: split s us := by
  induction ts with
  | nil =>
    rw [List.nil_append, split]
    cases hus : split s us with
    | nil => exact absurd hus (split_ne_nil s us)
    | cons part parts => simp
  | cons t ts ih =>
    rw [List.mem_cons, not_or] at h
    rw [List.cons_append, split, ih h.2]
    simp [Ne.symm h.1]

/-- **Parts put together with a sentinel are cut apart at it again**, if there is a part and
none holds the sentinel. -/
theorem split_intercalate {s : Sentinel} {parts : List (List Token)} (hne : parts ≠ [])
    (h : ∀ part ∈ parts, mark s ∉ part) : split s ([mark s].intercalate parts) = parts := by
  induction parts with
  | nil => exact absurd rfl hne
  | cons part parts ih =>
    obtain ⟨hpart, hparts⟩ := List.forall_mem_cons.1 h
    cases parts with
    | nil => simpa [List.intercalate] using split_of_not_mem hpart
    | cons next rest =>
      have hcat : [mark s].intercalate (part :: next :: rest) =
          part ++ mark s :: [mark s].intercalate (next :: rest) := by
        simp [List.intercalate]
      rw [hcat, split_append_mark hpart, ih (by simp) hparts]

/-- The first sentinel is where tokens are cut once. -/
theorem cut?_append_mark {s : Sentinel} {ts : List Token} (h : mark s ∉ ts) (us : List Token) :
    cut? s (ts ++ mark s :: us) = some (ts, us) := by
  induction ts with
  | nil => simp [cut?]
  | cons t ts ih =>
    rw [List.mem_cons, not_or] at h
    rw [List.cons_append, cut?, ih h.2]
    simp [Ne.symm h.1]

end Token

end Microbench.Spec
