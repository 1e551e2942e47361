import Mathlib.Data.List.Forall2
import ProtoSchema.Text.Escape

set_option autoImplicit false

/-! # Reading code with string literals

A reader goes over code from left to right and keeps track of string literals and brackets. It says
what stands outside of the literals (`Reader.read`), or fails: at a literal that is not closed, at
brackets that do not match, at a line break.

What a reader makes of a text is stated for all that may follow it, so that texts can be put
together: `Reads` for code, `Inside` for the contents of a literal. `ReadAlike` compares two texts
that differ at most inside their literals; a text that is read at all is read like itself. -/

namespace ProtoSchema.Text

/-! ## The reader -/

def isLineBreak (c : Char) : Bool :=
  c = '\n' || c = '\r'

/-- The bracket that closes an opening one. -/
def closing? : Char → Option Char
  | '(' => some ')'
  | '[' => some ']'
  | '\x7b' => some '\x7d'
  | _ => none

def isClosing (c : Char) : Bool :=
  c = ')' || c = ']' || c = '\x7d'

/-- Whether a character behind a backslash stands for one character by itself. Digits and the
    letters of numeric escapes take more characters with them. -/
def isEscapeCode (c : Char) : Bool :=
  !(c.isDigit || c = 'u' || c = 'x')

/-- The one pattern that may stand between slashes, without the slash that opens it. -/
def slashPattern : List Char :=
  "^[a-zA-Z0-9][a-zA-Z0-9-]*$/".toList

/-- Where a reader stands: in code, in a string literal, behind a backslash in one, or in the
    pattern between slashes, of which the given characters are to come. -/
inductive Mode where
  | code
  | literal
  | escape
  | pattern (rest : List Char)
deriving DecidableEq

/-- A reader of code, with the brackets that are still to be closed, innermost first. -/
structure Reader where
  mode : Mode
  pending : List Char
deriving DecidableEq

namespace Reader

/-- Read a character of code. -/
def stepCode (pending : List Char) (c : Char) : Option Reader :=
  if c = '"' then some ⟨.literal, pending⟩
  else if c = '/' then some ⟨.pattern slashPattern, pending⟩
  else match closing? c with
    | some close => some ⟨.code, close :: pending⟩
    | none =>
      if isClosing c then
        match pending with
        | [] => none
        | close :: pending => if c = close then some ⟨.code, pending⟩ else none
      else some ⟨.code, pending⟩

/-- Read one character: where the reader stands then, and what of the character stands outside of
    literals. The quotes around a literal do. -/
def step (r : Reader) (c : Char) : Option (Reader × List Char) :=
  if isLineBreak c then none
  else match r.mode with
    | .code => (stepCode r.pending c).map fun next => (next, [c])
    | .literal =>
      if c = '"' then some (⟨.code, r.pending⟩, [c])
      else if c = '\\' then some (⟨.escape, r.pending⟩, [])
      else some (r, [])
    | .escape => if isEscapeCode c then some (⟨.literal, r.pending⟩, []) else none
    | .pattern [] => none
    | .pattern (d :: rest) =>
      if c = d then some (⟨if rest.isEmpty then .code else .pattern rest, r.pending⟩, [c])
      else none

/-- What stands outside of literals in the rest of the code, which has to close all that is open. -/
def read (r : Reader) : List Char → Option (List Char)
  | [] => if r = ⟨.code, []⟩ then some [] else none
  | c :: s => (r.step c).bind fun next => (read next.1 s).map (next.2 ++ ·)

end Reader

/-- What stands outside of the string literals of a piece of code, if they are closed and its
    brackets match. -/
def outsideLiterals? (code : String) : Option (List Char) :=
  Reader.read ⟨.code, []⟩ code.toList

theorem Reader.isLineBreak_of_read {r : Reader} {s outside : List Char}
    (h : r.read s = some outside) : ∀ c ∈ s, isLineBreak c = false := by
  induction s generalizing r outside with
  | nil => simp
  | cons c s ih =>
    obtain ⟨next, hstep, h⟩ := Option.bind_eq_some_iff.1 h
    obtain ⟨rest, hread, _⟩ := Option.map_eq_some_iff.1 h
    intro d hd
    rcases List.mem_cons.1 hd with rfl | hd
    · unfold Reader.step at hstep
      split at hstep
      · cases hstep
      · next hbreak => simpa using hbreak
    · exact ih hread d hd

/-- Code that is read is one line. -/
theorem isLineBreak_of_outsideLiterals? {code : String} {outside : List Char}
    (h : outsideLiterals? code = some outside) : ∀ c ∈ code.toList, isLineBreak c = false :=
  Reader.isLineBreak_of_read h

/-! ## Pieces of code -/

/-- In code, a text is read to its end and leaves the brackets as they were. -/
def Reads (s outside : List Char) : Prop :=
  ∀ pending rest, Reader.read ⟨.code, pending⟩ (s ++ rest) =
    (Reader.read ⟨.code, pending⟩ rest).map (outside ++ ·)

/-- In a literal, a text is read to its end without leaving the literal. -/
def Inside (s : List Char) : Prop :=
  ∀ pending rest, Reader.read ⟨.literal, pending⟩ (s ++ rest) =
    Reader.read ⟨.literal, pending⟩ rest

theorem Reader.stepCode_under {pending : List Char} {c : Char} {next : Reader}
    (h : stepCode pending c = some next) (under : List Char) :
    stepCode (pending ++ under) c = some ⟨next.mode, next.pending ++ under⟩ := by
  unfold stepCode at h ⊢
  by_cases hquote : c = '"'
  · simp only [if_pos hquote, Option.some.injEq] at h ⊢
    subst h
    rfl
  by_cases hslash : c = '/'
  · simp only [if_neg hquote, if_pos hslash, Option.some.injEq] at h ⊢
    subst h
    rfl
  simp only [if_neg hquote, if_neg hslash] at h ⊢
  split at h
  · cases h
    rfl
  · split at h
    · next hclosing =>
      rw [if_pos hclosing]
      split at h
      · cases h
      · split at h
        · next hsame =>
          cases h
          rw [List.cons_append]
          exact if_pos hsame
        · cases h
    · next hclosing =>
      cases h
      rw [if_neg hclosing]

/-- The brackets around a text do not concern the reading of it. -/
theorem Reader.step_under {r next : Reader} {c : Char} {out : List Char}
    (h : r.step c = some (next, out)) (under : List Char) :
    Reader.step ⟨r.mode, r.pending ++ under⟩ c =
      some (⟨next.mode, next.pending ++ under⟩, out) := by
  obtain ⟨mode, pending⟩ := r
  unfold Reader.step at h ⊢
  split at h
  · cases h
  · next hbreak =>
    rw [if_neg hbreak]
    cases mode with
    | code =>
      obtain ⟨_, hcode, heq⟩ := Option.map_eq_some_iff.1 h
      cases heq
      simp [stepCode_under hcode under]
    | literal =>
      by_cases hquote : c = '"'
      · simp only [if_pos hquote] at h ⊢
        cases h
        rfl
      · simp only [if_neg hquote] at h ⊢
        split at h <;> cases h <;> simp [*]
    | escape =>
      dsimp only at h ⊢
      split at h
      · next hcode =>
        cases h
        rw [if_pos hcode]
      · cases h
    | pattern rest =>
      cases rest with
      | nil => cases h
      | cons d rest =>
        dsimp only at h ⊢
        split at h
        · next hsame =>
          cases h
          rw [if_pos hsame]
        · cases h

theorem Reader.read_under {r : Reader} {s outside : List Char} (h : r.read s = some outside)
    (under rest : List Char) :
    Reader.read ⟨r.mode, r.pending ++ under⟩ (s ++ rest) =
      (Reader.read ⟨.code, under⟩ rest).map (outside ++ ·) := by
  induction s generalizing r outside with
  | nil =>
    unfold Reader.read at h
    split at h
    · next hr =>
      subst hr
      cases h
      simp
    · cases h
  | cons c s ih =>
    obtain ⟨⟨next, out⟩, hstep, h⟩ := Option.bind_eq_some_iff.1 h
    obtain ⟨tail, htail, rfl⟩ := Option.map_eq_some_iff.1 h
    rw [List.cons_append, Reader.read, Reader.step_under hstep, Option.bind_some, ih htail,
      Option.map_map]
    simp [Function.comp_def]

/-- What is read by itself is read wherever it stands. -/
theorem Reads.of_outsideLiterals? {s : String} {outside : List Char}
    (h : Text.outsideLiterals? s = some outside) : Reads s.toList outside :=
  fun pending rest => Reader.read_under h pending rest

theorem Reads.outsideLiterals? {s : String} {outside : List Char} (h : Reads s.toList outside) :
    Text.outsideLiterals? s = some outside := by
  simpa [Text.outsideLiterals?, Reader.read] using h [] []

theorem Reads.nil : Reads [] [] := by
  intro pending rest
  simp

theorem Reads.append {s t k l : List Char} (hs : Reads s k) (ht : Reads t l) :
    Reads (s ++ t) (k ++ l) := by
  intro pending rest
  rw [List.append_assoc, hs, ht, Option.map_map]
  simp [Function.comp_def]

/-- The characters that have a meaning for the reader, in code or in a literal. -/
def specialChars : List Char :=
  ['\n', '\r', '"', '\\', '/', '(', ')', '[', ']', '\x7b', '\x7d']

/-- A character that the reader passes over wherever it stands. -/
def isPlain (c : Char) : Bool :=
  !specialChars.contains c

theorem isPlain_of {p : Char → Bool} (hp : specialChars.any p = false) {c : Char}
    (h : p c = true) : isPlain c = true := by
  rw [isPlain, Bool.not_eq_true', ← Bool.not_eq_true, List.contains_iff_mem]
  intro hmem
  exact List.any_eq_false.1 hp c hmem h

theorem Reader.step_plain {c : Char} (h : isPlain c = true) (pending : List Char) :
    Reader.step ⟨.code, pending⟩ c = some (⟨.code, pending⟩, [c]) := by
  have hother : c ∉ specialChars := by simpa [isPlain] using h
  have hopen : closing? c = none := by
    unfold closing?
    split
    · exact absurd (by decide) hother
    · exact absurd (by decide) hother
    · exact absurd (by decide) hother
    · rfl
  simp only [specialChars, List.mem_cons, List.not_mem_nil, or_false, not_or] at hother
  simp [Reader.step, Reader.stepCode, isLineBreak, isClosing, hopen, hother]

theorem Reads.plain {s : List Char} (h : ∀ c ∈ s, isPlain c = true) : Reads s s := by
  intro pending rest
  induction s with
  | nil => simp
  | cons c s ih =>
    rw [List.cons_append, Reader.read, Reader.step_plain (h c List.mem_cons_self),
      Option.bind_some, ih fun d hd => h d (List.mem_cons_of_mem _ hd), Option.map_map]
    rfl

/-- Brackets are read around what is read. -/
theorem Reads.enclosed {left right : Char} (hpair : closing? left = some right)
    {s k : List Char} (h : Reads s k) : Reads (left :: s ++ [right]) (left :: k ++ [right]) := by
  have hcases : (left = '(' ∧ right = ')') ∨ (left = '[' ∧ right = ']') ∨
      (left = '\x7b' ∧ right = '\x7d') := by
    unfold closing? at hpair
    split at hpair
    · exact .inl ⟨rfl, (Option.some.inj hpair).symm⟩
    · exact .inr (.inl ⟨rfl, (Option.some.inj hpair).symm⟩)
    · exact .inr (.inr ⟨rfl, (Option.some.inj hpair).symm⟩)
    · cases hpair
  have hopen : ∀ pending, Reader.step ⟨.code, pending⟩ left =
      some (⟨.code, right :: pending⟩, [left]) := by
    intro pending
    rcases hcases with ⟨rfl, rfl⟩ | ⟨rfl, rfl⟩ | ⟨rfl, rfl⟩ <;> rfl
  have hclose : ∀ pending, Reader.step ⟨.code, right :: pending⟩ right =
      some (⟨.code, pending⟩, [right]) := by
    intro pending
    rcases hcases with ⟨rfl, rfl⟩ | ⟨rfl, rfl⟩ | ⟨rfl, rfl⟩ <;> rfl
  intro pending rest
  rw [List.append_assoc, List.cons_append, Reader.read, hopen, Option.bind_some, h,
    List.singleton_append, Reader.read, hclose, Option.bind_some, Option.map_map, Option.map_map]
  simp [Function.comp_def]

/-- Only the quotes of a literal stand outside of it. -/
theorem Reads.quoted {s : List Char} (h : Inside s) : Reads ('"' :: s ++ ['"']) ['"', '"'] := by
  intro pending rest
  have hopen : Reader.step ⟨.code, pending⟩ '"' = some (⟨.literal, pending⟩, ['"']) := rfl
  have hclose : Reader.step ⟨.literal, pending⟩ '"' = some (⟨.code, pending⟩, ['"']) := rfl
  rw [List.append_assoc, List.cons_append, Reader.read, hopen, Option.bind_some, h,
    List.singleton_append, Reader.read, hclose, Option.bind_some, Option.map_map]
  rfl

/-! ## Contents of literals -/

theorem Inside.append {s t : List Char} (hs : Inside s) (ht : Inside t) : Inside (s ++ t) := by
  intro pending rest
  rw [List.append_assoc, hs, ht]

theorem Inside.flatten {ss : List (List Char)} (h : ∀ s ∈ ss, Inside s) : Inside ss.flatten := by
  induction ss with
  | nil =>
    intro pending rest
    rfl
  | cons s ss ih =>
    rw [List.flatten_cons]
    exact (h s List.mem_cons_self).append (ih fun t ht => h t (List.mem_cons_of_mem _ ht))

/-- All but quotes, backslashes and line breaks mean themselves in a literal. -/
theorem Inside.singleton {c : Char} (h : c ∉ ['"', '\\', '\n', '\r']) : Inside [c] := by
  intro pending rest
  simp only [List.mem_cons, List.not_mem_nil, or_false, not_or] at h
  have hstep : Reader.step ⟨.literal, pending⟩ c = some (⟨.literal, pending⟩, []) := by
    simp [Reader.step, isLineBreak, h]
  rw [List.singleton_append, Reader.read, hstep, Option.bind_some]
  simp

theorem Inside.plain {s : List Char} (h : ∀ c ∈ s, isPlain c = true) : Inside s := by
  induction s with
  | nil =>
    intro pending rest
    rfl
  | cons c s ih =>
    have hother : c ∉ specialChars := by simpa [isPlain] using h c List.mem_cons_self
    refine Inside.append (s := [c]) (.singleton ?_) (ih fun d hd => h d (List.mem_cons_of_mem _ hd))
    simp only [specialChars, List.mem_cons, not_or] at hother
    simp [hother]

theorem Inside.escape {c : Char} (h : isEscapeCode c = true) (hbreak : isLineBreak c = false) :
    Inside ['\\', c] := by
  intro pending rest
  have hfirst : Reader.step ⟨.literal, pending⟩ '\\' = some (⟨.escape, pending⟩, []) := rfl
  have hsecond : Reader.step ⟨.escape, pending⟩ c = some (⟨.literal, pending⟩, []) := by
    simp [Reader.step, h, hbreak]
  rw [List.cons_append, List.singleton_append, Reader.read, hfirst, Option.bind_some, Reader.read,
    hsecond, Option.bind_some]
  simp

/-! ## Escapes -/

/-- How one character is escaped. -/
def escapeChar (table : EscapeTable) (c : Char) : List Char :=
  match table.lookup c with
  | some code => ['\\', code]
  | none => [c]

/-- No later substitution of a table touches what an earlier one has put in. -/
def Independent (table : EscapeTable) : Prop :=
  table.Pairwise fun entry later => later.1 ≠ '\\' ∧ later.1 ≠ entry.2

theorem escapeChars_of_notMem {table : EscapeTable} {s : List Char}
    (h : ∀ entry ∈ table, entry.1 ∉ s) : escapeChars table s = s := by
  induction table with
  | nil => rfl
  | cons entry table ih =>
    have hkeep : substitute entry.1 ['\\', entry.2] s = s := by
      have hne : ∀ x ∈ s, x ≠ entry.1 := fun x hx heq => h entry List.mem_cons_self (heq ▸ hx)
      clear h ih
      induction s with
      | nil => rfl
      | cons x s ih =>
        simp only [substitute, List.flatMap_cons, if_neg (hne x List.mem_cons_self),
          List.singleton_append, List.cons.injEq, true_and]
        exact ih fun y hy => hne y (List.mem_cons_of_mem _ hy)
    show escapeChars table (substitute entry.1 ['\\', entry.2] s) = s
    rw [hkeep]
    exact ih fun entry' hentry => h entry' (List.mem_cons_of_mem _ hentry)

theorem escapeChars_singleton {table : EscapeTable} (h : Independent table) (c : Char) :
    escapeChars table [c] = escapeChar table c := by
  induction table with
  | nil => rfl
  | cons entry table ih =>
    obtain ⟨key, code⟩ := entry
    rw [Independent, List.pairwise_cons] at h
    show escapeChars table (substitute key ['\\', code] [c]) = _
    by_cases hc : c = key
    · subst hc
      have hfix : escapeChars table ['\\', code] = ['\\', code] := by
        apply escapeChars_of_notMem
        intro later hlater
        simpa using h.1 later hlater
      simp [substitute, escapeChar, hfix]
    · have hother : (c == key) = false := by simpa using hc
      simp [substitute, escapeChar, hc, hother, List.lookup_cons, ih h.2]

/-- Substituting one special character after the other over the whole text is the same as escaping
    each character by itself. -/
theorem escapeChars_eq_flatMap {table : EscapeTable} (h : Independent table) (s : List Char) :
    escapeChars table s = s.flatMap (escapeChar table) := by
  induction s with
  | nil => exact escapeChars_of_notMem fun _ _ => List.not_mem_nil
  | cons c s ih =>
    rw [← List.singleton_append, escapeChars_append, escapeChars_singleton h, ih]
    simp

/-- A table that escapes all that has a meaning in a literal, by single characters. -/
structure Confining (table : EscapeTable) : Prop where
  independent : Independent table
  complete : ∀ c ∈ ['"', '\\', '\n', '\r'], (table.lookup c).isSome = true
  codes : ∀ entry ∈ table, isEscapeCode entry.2 = true ∧ isLineBreak entry.2 = false

theorem literalEscapes_confining : Confining literalEscapes :=
  ⟨by unfold Independent; decide, List.all_eq_true.1 (by decide), by decide⟩

theorem patternEscapes_confining : Confining patternEscapes :=
  ⟨by unfold Independent; decide, List.all_eq_true.1 (by decide), by decide⟩

/-- Whatever the text, its escaped form stays inside the literal. -/
theorem Confining.inside {table : EscapeTable} (h : Confining table) (s : List Char) :
    Inside (escapeChars table s) := by
  rw [escapeChars_eq_flatMap h.independent, List.flatMap_def]
  refine Inside.flatten ?_
  intro t ht
  obtain ⟨c, _, rfl⟩ := List.mem_map.1 ht
  unfold escapeChar
  split
  · next code hcode =>
    obtain ⟨front, back, htable, _⟩ := List.lookup_eq_some_iff.1 hcode
    obtain ⟨hescape, hbreak⟩ := h.codes (c, code) (by rw [htable]; simp)
    exact .escape hescape hbreak
  · next hnone =>
    refine .singleton fun hmem => ?_
    have hsome := h.complete c hmem
    rw [hnone] at hsome
    cases hsome

/-! ## Texts that are read alike -/

/-- Two texts are read in code, and outside of literals they are the same. -/
def ReadAlike (s s' : String) : Prop :=
  ∃ outside, Reads s.toList outside ∧ Reads s'.toList outside

theorem ReadAlike.outsideLiterals? {s s' : String} (h : ReadAlike s s') :
    ∃ outside, outsideLiterals? s = some outside ∧ outsideLiterals? s' = some outside := by
  obtain ⟨outside, hs, hs'⟩ := h
  exact ⟨outside, hs.outsideLiterals?, hs'.outsideLiterals?⟩

theorem ReadAlike.of_isSome {s : String} (h : (Text.outsideLiterals? s).isSome = true) :
    ReadAlike s s := by
  obtain ⟨outside, hs⟩ := Option.isSome_iff_exists.1 h
  exact ⟨outside, .of_outsideLiterals? hs, .of_outsideLiterals? hs⟩

/-- Two texts that are read like a third one are read alike, since a text is read in one way. -/
theorem ReadAlike.trans_right {s s' t : String} (h : ReadAlike s t) (h' : ReadAlike s' t) :
    ReadAlike s s' := by
  obtain ⟨k, hs, hk⟩ := h
  obtain ⟨l, hs', hl⟩ := h'
  obtain rfl : k = l := Option.some.inj (hk.outsideLiterals?.symm.trans hl.outsideLiterals?)
  exact ⟨k, hs, hs'⟩

theorem ReadAlike.append {s s' t t' : String} (hs : ReadAlike s s') (ht : ReadAlike t t') :
    ReadAlike (s ++ t) (s' ++ t') := by
  obtain ⟨k, hk, hk'⟩ := hs
  obtain ⟨l, hl, hl'⟩ := ht
  refine ⟨k ++ l, ?_, ?_⟩
  · rw [String.toList_append]
    exact hk.append hl
  · rw [String.toList_append]
    exact hk'.append hl'

theorem ReadAlike.enclosed (left right : Char) (hpair : closing? left = some right)
    {s s' : String} (h : ReadAlike s s') :
    ReadAlike (String.singleton left ++ s ++ String.singleton right)
      (String.singleton left ++ s' ++ String.singleton right) := by
  obtain ⟨k, hk, hk'⟩ := h
  refine ⟨left :: k ++ [right], ?_, ?_⟩
  · simpa using hk.enclosed hpair
  · simpa using hk'.enclosed hpair

theorem ReadAlike.parens {s s' : String} (h : ReadAlike s s') :
    ReadAlike ("(" ++ s ++ ")") ("(" ++ s' ++ ")") :=
  h.enclosed '(' ')' rfl

theorem ReadAlike.brackets {s s' : String} (h : ReadAlike s s') :
    ReadAlike ("[" ++ s ++ "]") ("[" ++ s' ++ "]") :=
  h.enclosed '[' ']' rfl

theorem ReadAlike.braces {s s' : String} (h : ReadAlike s s') :
    ReadAlike ("\x7b" ++ s ++ "\x7d") ("\x7b" ++ s' ++ "\x7d") :=
  h.enclosed '\x7b' '\x7d' rfl

theorem ReadAlike.quoted {s s' : String} (h : Inside s.toList) (h' : Inside s'.toList) :
    ReadAlike ("\"" ++ s ++ "\"") ("\"" ++ s' ++ "\"") := by
  refine ⟨['"', '"'], ?_, ?_⟩
  · simpa using Reads.quoted h
  · simpa using Reads.quoted h'

/-- A text of plain characters is code, and it may also stand in a literal. -/
def PlainText (s : String) : Prop :=
  ∀ c ∈ s.toList, isPlain c = true

instance (s : String) : Decidable (PlainText s) :=
  decidable_of_iff (s.toList.all isPlain = true) List.all_eq_true

theorem PlainText.append {s t : String} (hs : PlainText s) (ht : PlainText t) :
    PlainText (s ++ t) := by
  intro c hc
  rw [String.toList_append] at hc
  rcases List.mem_append.1 hc with hc | hc
  · exact hs c hc
  · exact ht c hc

theorem PlainText.readAlike {s : String} (h : PlainText s) : ReadAlike s s :=
  ⟨s.toList, .plain h, .plain h⟩

/-- An application, whose callee is given together with the parenthesis behind it. -/
theorem ReadAlike.applied {opening argument argument' : String} (callee : String)
    (hopening : opening = callee ++ "(") (hcallee : PlainText callee)
    (h : ReadAlike argument argument') :
    ReadAlike (opening ++ argument ++ ")") (opening ++ argument' ++ ")") := by
  have heq : ∀ a : String, opening ++ a ++ ")" = callee ++ ("(" ++ a ++ ")") := by
    intro a
    rw [hopening]
    simp only [String.append_assoc]
  rw [heq, heq]
  exact hcallee.readAlike.append h.parens

theorem PlainText.inside {s : String} (h : PlainText s) : Inside s.toList :=
  .plain h

theorem PlainText.inside_append {s t : String} (hs : PlainText s) (ht : Inside t.toList) :
    Inside (s ++ t).toList := by
  rw [String.toList_append]
  exact hs.inside.append ht

/-! ## Lists of texts -/

theorem intercalate_cons_cons (sep s t : String) (ts : List String) :
    sep.intercalate (s :: t :: ts) = s ++ (sep ++ sep.intercalate (t :: ts)) := by
  apply String.toList_injective
  simp [String.toList_intercalate, List.intercalate]

theorem ReadAlike.intercalate {sep : String} (hsep : PlainText sep) {ss ss' : List String}
    (h : List.Forall₂ ReadAlike ss ss') :
    ReadAlike (sep.intercalate ss) (sep.intercalate ss') := by
  induction h with
  | nil => exact ⟨[], .nil, .nil⟩
  | cons hs htail ih =>
    cases htail with
    | nil => simpa using hs
    | cons ht hrest =>
      rw [intercalate_cons_cons, intercalate_cons_cons]
      exact hs.append (hsep.readAlike.append ih)

theorem Inside.intercalate {sep : String} (hsep : PlainText sep) {ss : List String}
    (h : ∀ s ∈ ss, Inside s.toList) : Inside (sep.intercalate ss).toList := by
  induction ss with
  | nil => exact .plain (by simp)
  | cons s ss ih =>
    have hs := h s List.mem_cons_self
    cases ss with
    | nil => simpa using hs
    | cons t ts =>
      rw [intercalate_cons_cons, String.toList_append, String.toList_append]
      exact hs.append (hsep.inside.append (ih fun u hu => h u (List.mem_cons_of_mem _ hu)))

theorem ReadAlike.join {ss ss' : List String} (h : List.Forall₂ ReadAlike ss ss') :
    ReadAlike (String.join ss) (String.join ss') := by
  have hcons : ∀ (s : String) (ss : List String), String.join (s :: ss) = s ++ String.join ss := by
    intro s ss
    apply String.toList_injective
    simp [String.toList_join]
  induction h with
  | nil => exact ⟨[], .nil, .nil⟩
  | cons hs _ ih =>
    rw [hcons, hcons]
    exact hs.append ih

end ProtoSchema.Text
