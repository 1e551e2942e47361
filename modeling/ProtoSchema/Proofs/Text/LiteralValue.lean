import ProtoSchema.Proofs.Text.Literal

set_option autoImplicit false

/-! # The values of string literals

A string literal stands for a sequence of UTF-16 code units. `readLiteral?` reads a double-quoted
literal at the start of a text as strict code has it, with all kinds of escape sequences, and says
what follows it. Escaping is undone by reading: what `escapeLiteral` and `escapePattern` write
stands for the text that was escaped, whatever follows the closing quote (`escapes_undone`). -/

namespace ProtoSchema.Text

/-! ## Code units -/

/-- The code units of a character number: one, or a surrogate pair. -/
def codeUnits (n : Nat) : List UInt16 :=
  if n < 0x10000 then [.ofNat n]
  else [.ofNat (0xD800 + (n - 0x10000) / 0x400), .ofNat (0xDC00 + (n - 0x10000) % 0x400)]

/-- A text in UTF-16. -/
def utf16 (s : List Char) : List UInt16 :=
  s.flatMap fun c => codeUnits c.toNat

/-! ## The reader -/

/-- Where a reader of a literal stands. -/
inductive LiteralMode where
  /-- Between escape sequences. -/
  | text
  /-- Behind a backslash. -/
  | escape
  /-- Behind an escaped zero, which no digit may follow. -/
  | zero
  /-- Behind an escaped carriage return, which takes a line feed with it. -/
  | carriage
  /-- In an escape sequence of fixed length, of which `left` hexadecimal digits are to come. -/
  | hex (left value : Nat)
  /-- Behind the letter of an escape sequence with four digits, or with digits in braces. -/
  | unicode
  /-- Between braces, with the value of the digits so far. -/
  | braced (value : Option Nat)
deriving DecidableEq

/-- The value of a hexadecimal digit. -/
def hexValue? (c : Char) : Option Nat :=
  if '0' ≤ c ∧ c ≤ '9' then some (c.toNat - 48)
  else if 'a' ≤ c ∧ c ≤ 'f' then some (c.toNat - 87)
  else if 'A' ≤ c ∧ c ≤ 'F' then some (c.toNat - 55)
  else none

/-- The letters that stand for a control character behind a backslash. -/
def controlEscapes : List (Char × Char) :=
  [('b', '\x08'), ('t', '\t'), ('n', '\n'), ('v', '\x0b'), ('f', '\x0c'), ('r', '\r')]

namespace LiteralMode

/-- Read a character that no escape sequence is waiting for. -/
def stepText (c : Char) : Option (LiteralMode × List UInt16) :=
  if c = '\\' then some (.escape, [])
  else if isLineBreak c then none
  else some (.text, codeUnits c.toNat)

/-- Read the character behind a backslash. A line end there is skipped, and a character without a
    meaning of its own stands for itself. -/
def stepEscape (c : Char) : Option (LiteralMode × List UInt16) :=
  if c = 'x' then some (.hex 2 0, [])
  else if c = 'u' then some (.unicode, [])
  else if c = '0' then some (.zero, codeUnits 0)
  else if c.isDigit then none
  else if c = '\r' then some (.carriage, [])
  else if c = '\n' ∨ c = '\u2028' ∨ c = '\u2029' then some (.text, [])
  else some (.text, codeUnits ((controlEscapes.lookup c).getD c).toNat)

/-- Read a hexadecimal digit of an escape sequence of fixed length. -/
def stepHex (left value : Nat) (c : Char) : Option (LiteralMode × List UInt16) :=
  (hexValue? c).map fun digit =>
    if left ≤ 1 then (.text, codeUnits (16 * value + digit))
    else (.hex (left - 1) (16 * value + digit), [])

/-- Read a digit between braces, or the closing brace. -/
def stepBraced (value : Option Nat) (c : Char) : Option (LiteralMode × List UInt16) :=
  if c = '\x7d' then value.map fun n => (.text, codeUnits n)
  else (hexValue? c).bind fun digit =>
    let next := 16 * value.getD 0 + digit
    if next < 0x110000 then some (.braced (some next), []) else none

/-- Read one character: where the reader stands then, and the code units that are complete. -/
def step : LiteralMode → Char → Option (LiteralMode × List UInt16)
  | text, c => stepText c
  | escape, c => stepEscape c
  | zero, c => if c.isDigit then none else stepText c
  | carriage, c => if c = '\n' then some (.text, []) else stepText c
  | hex left value, c => stepHex left value c
  | unicode, c => if c = '\x7b' then some (.braced none, []) else stepHex 4 0 c
  | braced value, c => stepBraced value c

/-- Whether a quote would close the literal. -/
def complete : LiteralMode → Bool
  | text | zero | carriage => true
  | _ => false

/-- Read up to the quote that closes the literal: the rest of its value, and what follows it. -/
def read (mode : LiteralMode) : List Char → Option (List UInt16 × List Char)
  | [] => none
  | c :: s =>
    if mode.complete && c = '"' then some ([], s)
    else (mode.step c).bind fun next => (read next.1 s).map fun out => (next.2 ++ out.1, out.2)

end LiteralMode

/-- Read a double-quoted literal at the start of a text: its value, and what follows it. -/
def readLiteral? : List Char → Option (List UInt16 × List Char)
  | '"' :: s => LiteralMode.read .text s
  | _ => none

theorem LiteralMode.read_cons {mode : LiteralMode} {c : Char} {next : LiteralMode × List UInt16}
    (hopen : (mode.complete && c = '"') = false) (hstep : mode.step c = some next) (s : List Char) :
    read mode (c :: s) = (read next.1 s).map fun out => (next.2 ++ out.1, out.2) := by
  rw [read, hopen, if_neg Bool.false_ne_true, hstep, Option.bind_some]

/-! ## Spellings -/

/-- Inside a literal, a text is read to its end and stands for the given code units. -/
def Spells (s : List Char) (units : List UInt16) : Prop :=
  ∀ rest, LiteralMode.read .text (s ++ rest) =
    (LiteralMode.read .text rest).map fun out => (units ++ out.1, out.2)

theorem Spells.nil : Spells [] [] := by
  intro rest
  simp

theorem Spells.append {s t : List Char} {u v : List UInt16} (hs : Spells s u) (ht : Spells t v) :
    Spells (s ++ t) (u ++ v) := by
  intro rest
  rw [List.append_assoc, hs, ht, Option.map_map]
  simp [Function.comp_def]

theorem Spells.flatMap {α : Type} {spell : α → List Char} {units : α → List UInt16} {as : List α}
    (h : ∀ a ∈ as, Spells (spell a) (units a)) : Spells (as.flatMap spell) (as.flatMap units) := by
  induction as with
  | nil => exact .nil
  | cons a as ih =>
    rw [List.flatMap_cons, List.flatMap_cons]
    exact (h a List.mem_cons_self).append (ih fun b hb => h b (List.mem_cons_of_mem _ hb))

/-- All but quotes, backslashes and line breaks stand for themselves. -/
theorem Spells.singleton {c : Char} (h : c ∉ ['"', '\\', '\n', '\r']) :
    Spells [c] (codeUnits c.toNat) := by
  intro rest
  simp only [List.mem_cons, List.not_mem_nil, or_false, not_or] at h
  have hstep : LiteralMode.step .text c = some (.text, codeUnits c.toNat) := by
    simp [LiteralMode.step, LiteralMode.stepText, isLineBreak, h]
  exact LiteralMode.read_cons (by simp [h]) hstep rest

/-- A backslash and a code that ends the escape sequence. -/
theorem Spells.escape {code : Char} {units : List UInt16}
    (h : LiteralMode.step .escape code = some (.text, units)) : Spells ['\\', code] units := by
  intro rest
  have hbackslash : LiteralMode.step .text '\\' = some (.escape, []) := rfl
  show LiteralMode.read .text ('\\' :: code :: rest) = _
  rw [LiteralMode.read_cons rfl hbackslash, LiteralMode.read_cons rfl h, Option.map_map]
  rfl

/-! ## Escaped texts -/

/-- A table whose codes stand for the characters that they replace. -/
structure Faithful (table : EscapeTable) : Prop where
  confining : Confining table
  codes : ∀ entry ∈ table,
    LiteralMode.step .escape entry.2 = some (.text, codeUnits entry.1.toNat)

theorem literalEscapes_faithful : Faithful literalEscapes :=
  ⟨literalEscapes_confining, by decide⟩

theorem patternEscapes_faithful : Faithful patternEscapes :=
  ⟨patternEscapes_confining, by decide⟩

theorem mem_of_lookup {table : EscapeTable} {c code : Char} (h : table.lookup c = some code) :
    (c, code) ∈ table := by
  obtain ⟨front, back, htable, _⟩ := List.lookup_eq_some_iff.1 h
  rw [htable]
  simp

theorem Confining.notMem_of_lookup {table : EscapeTable} (h : Confining table) {c : Char}
    (hnone : table.lookup c = none) : c ∉ ['"', '\\', '\n', '\r'] := by
  intro hmem
  have hsome := h.complete c hmem
  rw [hnone] at hsome
  cases hsome

theorem Faithful.spells {table : EscapeTable} (h : Faithful table) (c : Char) :
    Spells (escapeChar table c) (codeUnits c.toNat) := by
  unfold escapeChar
  split
  · next code hcode => exact .escape (h.codes _ (mem_of_lookup hcode))
  · next hnone => exact .singleton (h.confining.notMem_of_lookup hnone)

theorem Confining.isLineBreak_of_mem {table : EscapeTable} (h : Confining table) {s : List Char}
    {d : Char} (hd : d ∈ escapeChars table s) : isLineBreak d = false := by
  rw [escapeChars_eq_flatMap h.independent] at hd
  obtain ⟨c, _, hd⟩ := List.mem_flatMap.1 hd
  unfold escapeChar at hd
  split at hd
  · next code hcode =>
    rcases List.mem_cons.1 hd with rfl | hd
    · rfl
    · rw [List.mem_singleton.1 hd]
      exact (h.codes _ (mem_of_lookup hcode)).2
  · next hnone =>
    have hplain := h.notMem_of_lookup hnone
    rw [List.mem_singleton.1 hd]
    simp only [List.mem_cons, List.not_mem_nil, or_false, not_or] at hplain
    simp [isLineBreak, hplain]

/-- What it means that escaping by a table is undone by reading. -/
structure Undone (escape : String → String) (table : EscapeTable) : Prop where
  /-- Between quotes, an escaped text stands for the text, and the second quote ends it. -/
  read : ∀ s rest : String, readLiteral? ("\"" ++ escape s ++ "\"" ++ rest).toList =
    some (utf16 s.toList, rest.toList)
  /-- An escaped text has no line breaks. -/
  line : ∀ s : String, ∀ c ∈ (escape s).toList, c ≠ '\n' ∧ c ≠ '\r'
  /-- One pass that escapes each character by itself writes the same. -/
  pass : ∀ s : String, escape s = String.ofList (s.toList.flatMap (escapeChar table))

theorem Faithful.undone {table : EscapeTable} (h : Faithful table) :
    Undone (fun s => String.ofList (escapeChars table s.toList)) table where
  read s rest := by
    have hspells : Spells (escapeChars table s.toList) (utf16 s.toList) := by
      rw [escapeChars_eq_flatMap h.confining.independent]
      exact .flatMap fun c _ => h.spells c
    have hclose : LiteralMode.read .text ('"' :: rest.toList) = some ([], rest.toList) := rfl
    simp only [String.toList_append, String.toList_ofList]
    show LiteralMode.read .text (escapeChars table s.toList ++ ['"'] ++ rest.toList) = _
    rw [List.append_assoc, hspells, List.singleton_append, hclose]
    simp
  line s c hc := by
    rw [String.toList_ofList] at hc
    have hbreak := h.confining.isLineBreak_of_mem hc
    simpa [isLineBreak] using hbreak
  pass s := by rw [escapeChars_eq_flatMap h.confining.independent]

/-- **Escaping is undone by reading.** For texts and for patterns, the escaped form between quotes
    is read up to the second quote, whatever follows, and stands for what was escaped; it has no
    line breaks; and the substitutions one after the other over the whole text amount to one pass
    over its characters. -/
theorem escapes_undone :
    Undone escapeLiteral literalEscapes ∧ Undone escapePattern patternEscapes :=
  ⟨literalEscapes_faithful.undone, patternEscapes_faithful.undone⟩

/-- Quotes, backslashes and line breaks side by side, in front of another literal. -/
example : readLiteral? "\"\\\\\\\"\\n\\r\t\\\\\", \"b\"".toList =
    some (utf16 "\\\"\n\r\t\\".toList, ", \"b\"".toList) := by decide

end ProtoSchema.Text
