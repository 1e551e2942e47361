set_option autoImplicit false

/-! # Escaping inside double-quoted literals

A special character is written as a backslash followed by a code letter. An escape table lists the
special characters with their codes, in the order in which they are substituted; the backslash
comes first, so that the backslashes of later substitutions stay single. -/

namespace ProtoSchema.Text

/-- Special characters with the code letter that stands for each after a backslash. -/
abbrev EscapeTable := List (Char × Char)

/-- Replace every occurrence of one character. -/
def substitute (c : Char) (replacement s : List Char) : List Char :=
  s.flatMap fun x => if x = c then replacement else [x]

/-- Substitute the special characters of a table, one after the other over the whole text. -/
def escapeChars (table : EscapeTable) (s : List Char) : List Char :=
  table.foldl (fun t entry => substitute entry.1 ['\\', entry.2] t) s

/-- The escapes of a string literal. -/
def literalEscapes : EscapeTable :=
  [('\\', '\\'), ('"', '"'), ('\n', 'n'), ('\r', 'r'), ('\t', 't')]

/-- The escapes of a pattern that is written as a string literal: a tab stays as it is. -/
def patternEscapes : EscapeTable :=
  [('\\', '\\'), ('"', '"'), ('\n', 'n'), ('\r', 'r')]

/-- A text as it stands between the quotes of a string literal. -/
def escapeLiteral (s : String) : String :=
  String.ofList (escapeChars literalEscapes s.toList)

/-- A pattern as it stands between the quotes of a string literal. -/
def escapePattern (s : String) : String :=
  String.ofList (escapeChars patternEscapes s.toList)

/-- A text as a double-quoted string literal. -/
def literal (s : String) : String :=
  "\"" ++ escapeLiteral s ++ "\""

/-! ## Laws -/

@[simp] theorem substitute_append (c : Char) (r s t : List Char) :
    substitute c r (s ++ t) = substitute c r s ++ substitute c r t := by
  simp [substitute]

/-- Substitution acts on each character by itself, so escaping does too. -/
theorem escapeChars_append (table : EscapeTable) (s t : List Char) :
    escapeChars table (s ++ t) = escapeChars table s ++ escapeChars table t := by
  induction table generalizing s t with
  | nil => rfl
  | cons entry rest ih => simpa [escapeChars] using ih _ _

end ProtoSchema.Text
