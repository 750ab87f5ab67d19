import Microbench.Proofs.Dict
import Microbench.Proofs.Duration.Exact
import Microbench.Proofs.Spec.Tokens
import Microbench.Spec.Line

/-!
# Fields read back

Beside every writer of a field stand the tokens that it writes.  What is known of
them is kept together in `Renders`: the characters are the line of the tokens, and
only certain sentinels occur, so that a field can stand inside a larger one.

## Main definitions

* `textTokens`, `optionalTokens`, `listTokens`, `dictTokens` — the tokens of fields.
* `Renders` — characters that are the line of tokens with certain sentinels.

## Main results

* `renders_text`, `renders_optional`, `renders_list`, `renders_dict` — the writers.
* `readText_textTokens`, `readList_listTokens`, `readDict_dictTokens` — the readers.
-/

namespace Microbench.Spec

open Token

/-- The tokens of a text. -/
def textTokens (s : String) : List Token := if s.toList = [] then [] else [text s.toList]

/-- The tokens of a setting that may not be given. -/
def optionalTokens {α : Type} (tokens : α → List Token) : Option α → List Token
  | none => [mark .absent]
  | some a => tokens a

/-- The tokens of a list of texts. -/
def listTokens : List String → List Token
  | [] => [mark .empty]
  | items => [mark .item].intercalate (items.map textTokens)

/-- The tokens of an entry of a dictionary. -/
def entryTokens {α : Type} (tokens : α → List Token) (e : String × α) : List Token :=
  textTokens e.1 ++ mark .key :: tokens e.2

/-- The tokens of a dictionary. -/
def dictTokens {α : Type} (tokens : α → List Token) (d : Dict α) : List Token :=
  match d.toList with
  | [] => [mark .empty]
  | entries => [mark .entry].intercalate (entries.map (entryTokens tokens))

/-! ### Writing -/

/-- The characters are the line of these tokens, and only these sentinels occur. -/
structure Renders (cs : List Char) (ts : List Token) (marks : List Sentinel) : Prop where
  /-- The characters are the line. -/
  line_eq : cs = line ts
  /-- The line is cut into these tokens. -/
  normal : Normal ts
  /-- No other sentinel occurs. -/
  marks_mem : ∀ s, mark s ∈ ts → s ∈ marks

/-- More sentinels may be allowed than occur. -/
theorem Renders.mono {cs : List Char} {ts : List Token} {marks more : List Sentinel}
    (h : Renders cs ts marks) (hsub : ∀ s ∈ marks, s ∈ more) : Renders cs ts more :=
  ⟨h.line_eq, h.normal, fun s hs => hsub s (h.marks_mem s hs)⟩

/-- A sentinel that is not allowed does not occur. -/
theorem Renders.not_mem {cs : List Char} {ts : List Token} {marks : List Sentinel} {s : Sentinel}
    (h : Renders cs ts marks) (hs : s ∉ marks) : mark s ∉ ts :=
  fun hmem => hs (h.marks_mem s hmem)

theorem renders_text (s : String) (marks : List Sentinel) :
    Renders (writeText s) (textTokens s) marks := by
  unfold writeText textTokens
  split
  · next h => exact ⟨by rw [h]; rfl, trivial, by simp⟩
  · next h => exact ⟨by simp [Token.chars], ⟨h, rfl, trivial⟩, by simp⟩

theorem renders_mark {s : Sentinel} {marks : List Sentinel} (hs : s ∈ marks) :
    Renders s.chars [mark s] marks :=
  ⟨by simp [Token.chars], trivial, by simp [hs]⟩

/-- Two parts with a sentinel between them. -/
theorem Renders.append {cs ds : List Char} {ts us : List Token} {marks : List Sentinel}
    {s : Sentinel} (hcs : Renders cs ts marks) (hds : Renders ds us marks) (hs : s ∈ marks) :
    Renders (cs ++ s.chars ++ ds) (ts ++ mark s :: us) marks := by
  refine ⟨?_, hcs.normal.append_mark hds.normal, ?_⟩
  · rw [hcs.line_eq, hds.line_eq, line_append, line_cons, List.append_assoc]
    rfl
  · intro s' hs'
    simp only [List.mem_append, List.mem_cons, mark.injEq] at hs'
    rcases hs' with h | rfl | h
    · exact hcs.marks_mem s' h
    · exact hs
    · exact hds.marks_mem s' h

/-- Any number of parts with a sentinel between them, each given with its tokens. -/
theorem renders_joined {parts : List (List Char × List Token)} {marks : List Sentinel}
    {s : Sentinel} (hparts : ∀ p ∈ parts, Renders p.1 p.2 marks) (hs : s ∈ marks) :
    Renders (joined s (parts.map Prod.fst)) ([mark s].intercalate (parts.map Prod.snd)) marks := by
  induction parts with
  | nil => exact ⟨rfl, trivial, by simp [List.intercalate]⟩
  | cons p parts ih =>
    obtain ⟨hp, hparts⟩ := List.forall_mem_cons.1 hparts
    cases parts with
    | nil => simpa [joined, List.intercalate] using hp
    | cons q parts =>
      have h := hp.append (ih hparts) hs
      simpa [joined, List.intercalate, List.append_assoc] using h

/-- Any number of values, written in the same way, with a sentinel between them. -/
theorem renders_joined_map {α : Type} {write : α → List Char} {tokens : α → List Token}
    {items : List α} {marks : List Sentinel} {s : Sentinel}
    (h : ∀ a ∈ items, Renders (write a) (tokens a) marks) (hs : s ∈ marks) :
    Renders (joined s (items.map write)) ([mark s].intercalate (items.map tokens)) marks := by
  have hpairs : ∀ p ∈ items.map fun a => (write a, tokens a), Renders p.1 p.2 marks := by
    intro p hp
    obtain ⟨a, ha, rfl⟩ := List.mem_map.1 hp
    exact h a ha
  simpa [Function.comp_def] using renders_joined hpairs hs

theorem renders_optional {α : Type} {write : α → List Char} {tokens : α → List Token}
    {marks : List Sentinel} {o : Option α} (h : ∀ a, Renders (write a) (tokens a) marks)
    (habsent : .absent ∈ marks) :
    Renders (writeOptional write o) (optionalTokens tokens o) marks := by
  cases o with
  | none => exact renders_mark habsent
  | some a => exact h a

/-- The sentinels of a list. -/
def listMarks : List Sentinel := [.item, .empty]

/-- The sentinels of a dictionary of texts or of lists. -/
def dictMarks : List Sentinel := [.entry, .key, .item, .empty]

/-- The sentinels of a field: all but the one that ends it. -/
def fieldMarks : List Sentinel := [.absent, .entry, .key, .item, .empty]

theorem renders_list (items : List String) :
    Renders (writeList items) (listTokens items) listMarks := by
  cases items with
  | nil => exact renders_mark (by decide)
  | cons item items => exact renders_joined_map (fun a _ => renders_text a listMarks) (by decide)

theorem renders_dict {α : Type} {write : α → List Char} {tokens : α → List Token}
    (h : ∀ a, Renders (write a) (tokens a) dictMarks) (d : Dict α) :
    Renders (writeDict write d) (dictTokens tokens d) dictMarks := by
  rw [writeDict, dictTokens]
  cases d.toList with
  | nil => exact renders_mark (s := .empty) (by decide)
  | cons e entries =>
    refine renders_joined_map (fun e _ => ?_) (by decide)
    exact (renders_text e.1 dictMarks).append (h e.2) (by decide)

/-! ### Reading -/

/-- Reading values one after the other when each of them is read. -/
theorem mapM_map_ok {α β γ ε : Type} {f : α → Except ε γ} {g : β → α} {k : β → γ} {l : List β}
    (h : ∀ b ∈ l, f (g b) = .ok (k b)) : (l.map g).mapM f = .ok (l.map k) := by
  induction l with
  | nil => rfl
  | cons b l ih =>
    obtain ⟨hb, hl⟩ := List.forall_mem_cons.1 h
    rw [List.map_cons, List.mapM_cons, hb, ih hl]
    rfl

theorem readText_textTokens (s : String) : readText (textTokens s) = .ok s := by
  unfold textTokens
  split
  · next h => rw [String.toList_eq_nil_iff.1 h]; rfl
  · simp [readText]

/-- A setting that is given is read as if it could not be missing. -/
theorem readOptional_some {α : Type} {tokens : α → List Token}
    {read : List Token → Except FieldError α} {a : α} (h : mark .absent ∉ tokens a) :
    readOptional read (optionalTokens tokens (some a)) = (read (tokens a)).map some := by
  have hne : tokens a ≠ [mark .absent] := fun heq => h (heq ▸ List.mem_singleton_self _)
  rw [optionalTokens, readOptional, if_neg hne]

theorem readOptional_optionalTokens {α : Type} {tokens : α → List Token}
    {read : List Token → Except FieldError α} {o : Option α}
    (h : ∀ a, mark .absent ∉ tokens a) (hread : ∀ a, read (tokens a) = .ok a) :
    readOptional read (optionalTokens tokens o) = .ok o := by
  cases o with
  | none => rfl
  | some a => rw [readOptional_some (h a), hread a]; rfl

theorem readList_listTokens (items : List String) : readList (listTokens items) = .ok items := by
  cases items with
  | nil => rfl
  | cons item items =>
    have hrender : Renders _ (listTokens (item :: items)) [.item] :=
      renders_joined_map (fun a _ => renders_text a _) (by decide)
    -- the mark of the empty list never is one of the texts
    have hne : listTokens (item :: items) ≠ [mark .empty] := fun heq =>
      hrender.not_mem (s := .empty) (by decide) (heq ▸ List.mem_singleton_self _)
    rw [readList, if_neg hne, listTokens, split_intercalate (by simp)]
    · have hread := mapM_map_ok (f := readText) (k := id) fun a (_ : a ∈ item :: items) =>
        readText_textTokens a
      simpa using hread
    · intro part hpart
      obtain ⟨a, -, rfl⟩ := List.mem_map.1 hpart
      exact (renders_text a []).not_mem (by decide)
    · intro h; cases h

/-- The entries of a dictionary are read one by one, each with the tokens of its value. -/
theorem readEntries_dictTokens {α : Type} {tokens : α → List Token}
    (hentry : ∀ a, mark .entry ∉ tokens a) (d : Dict α) :
    readEntries (dictTokens tokens d) = .ok (d.toList.map fun e => (e.1, tokens e.2)) := by
  rw [dictTokens]
  cases d.toList with
  | nil => rfl
  | cons e entries =>
    have hkey : ∀ k : String, mark .key ∉ textTokens k := fun k =>
      (renders_text k []).not_mem (by decide)
    have hparts : ∀ part ∈ (e :: entries).map (entryTokens tokens), mark .entry ∉ part := by
      intro part hpart
      obtain ⟨x, -, rfl⟩ := List.mem_map.1 hpart
      have hx : mark .entry ∉ textTokens x.1 := (renders_text x.1 []).not_mem (by decide)
      simp [entryTokens, hx, hentry x.2]
    -- an entry holds the sentinel of keys, the mark of the empty dictionary does not
    have hne : [mark .entry].intercalate ((e :: entries).map (entryTokens tokens)) ≠
        [mark .empty] := by
      intro heq
      have hsplit := split_intercalate (s := .entry) (by simp) hparts
      rw [heq] at hsplit
      have hhead : entryTokens tokens e = [mark .empty] := by
        simpa [split] using (List.cons.inj hsplit).1.symm
      have : mark .key ∈ [mark Sentinel.empty] := by simp [← hhead, entryTokens]
      simp at this
    simp only [readEntries, if_neg hne, split_intercalate (s := .entry) (by simp) hparts]
    refine mapM_map_ok fun x _ => ?_
    simp only [entryTokens, cut?_append_mark (hkey x.1), readText_textTokens]
    rfl

theorem readDict_dictTokens {α : Type} {tokens : α → List Token}
    {read : List Token → Except FieldError α} (hentry : ∀ a, mark .entry ∉ tokens a)
    (hread : ∀ a, read (tokens a) = .ok a) (d : Dict α) :
    readDict read (dictTokens tokens d) = .ok d := by
  have hvalues : (d.toList.map fun e => (e.1, tokens e.2)).mapM
      (fun e => (read e.2).map fun v => (e.1, v)) = .ok d.toList := by
    have h := mapM_map_ok (f := fun e : String × List Token => (read e.2).map fun v => (e.1, v))
      (g := fun e : String × α => (e.1, tokens e.2)) (k := id) (l := d.toList)
      fun e _ => by rw [hread e.2]; rfl
    simpa using h
  rw [readDict, readEntries_dictTokens hentry]
  show (do
    let values ← (d.toList.map fun e => (e.1, tokens e.2)).mapM
      fun e => (read e.2).map fun v => (e.1, v)
    return Dict.ofList values) = Except.ok d
  rw [hvalues]
  exact congrArg Except.ok d.ofList_toList

/-- A text that a reader of its own accepts. -/
theorem readAs_textTokens {α ε : Type} {read : String → Except ε α} {message : ε → String}
    {s : String} {a : α} (h : read s = .ok a) : readAs read message (textTokens s) = .ok a := by
  rw [readAs, readText_textTokens]
  dsimp only [bind, Except.bind]
  rw [h]

theorem read32_textTokens (n : UInt32) : read32 (textTokens (Whole.text n.toNat)) = .ok n :=
  readAs_textTokens (Whole.read32_text n)

theorem read64_textTokens (n : UInt64) : read64 (textTokens (Whole.text n.toNat)) = .ok n :=
  readAs_textTokens (by simp [Whole.read64_text, Except.map])

theorem readBool_textTokens (b : Bool) : readBool (textTokens (boolText b)) = .ok b :=
  readAs_textTokens (by cases b <;> rfl)

theorem readMode_textTokens (m : Mode) :
    readAs Mode.parse UnknownMode.message (textTokens m.label) = .ok m :=
  readAs_textTokens (by cases m <;> rfl)

theorem readUnit_textTokens (u : TimeUnit) :
    readAs TimeUnit.parse UnknownUnit.message (textTokens u.suffix) = .ok u :=
  readAs_textTokens (by cases u <;> rfl)

theorem readSizes_listTokens (sizes : List UInt32) :
    readSizes (listTokens (sizes.map fun n => Whole.text n.toNat)) = .ok sizes := by
  rw [readSizes, readList_listTokens]
  refine (mapM_map_ok (k := id) fun n _ => ?_).trans (by rw [List.map_id])
  rw [Whole.read32_text]
  rfl

/-- A duration reads back if its nanoseconds fit 64 bits, and is refused otherwise. -/
theorem readDuration_textTokens (d : Duration) :
    readDuration (textTokens d.exact) =
      if d.nanos ≤ Duration.maxNanos then .ok d else .error (.badTime d.exact) := by
  rw [readDuration, readText_textTokens]
  dsimp only [bind, Except.bind]
  rw [Duration.parseExact_exact]
  by_cases h : d.nanos ≤ Duration.maxNanos
  · rw [if_pos h, if_pos h]
  · rw [if_neg h, if_neg h]

end Microbench.Spec
