set_option autoImplicit false

/-! # Cutting text at a separator

`split` cuts a text at every occurrence of one character and always returns at least one piece;
joining the pieces with the separator gives the text back (`intercalate_splitChars`). -/

namespace ProtoSchema.Text

/-- Put a character in front of the first piece. -/
def consPiece (c : Char) : List (List Char) → List (List Char)
  | [] => [[c]]
  | piece :: rest => (c :: piece) :: rest

/-- The pieces of a list of characters between the occurrences of `sep`. -/
def splitChars (sep : Char) : List Char → List (List Char)
  | [] => [[]]
  | c :: cs => if c = sep then [] :: splitChars sep cs else consPiece c (splitChars sep cs)

/-- The pieces of a text between the occurrences of `sep`. -/
def split (sep : Char) (s : String) : List String :=
  (splitChars sep s.toList).map String.ofList

/-- Cut a text at the first `sep`: the part before it and the part after it. Without a separator
    the second part is empty. -/
def cut (sep : Char) (s : String) : String × String :=
  (String.ofList (s.toList.takeWhile (· ≠ sep)),
    String.ofList ((s.toList.dropWhile (· ≠ sep)).drop 1))

/-! ## Laws -/

theorem splitChars_ne_nil (sep : Char) (s : List Char) : splitChars sep s ≠ [] := by
  cases s with
  | nil => simp [splitChars]
  | cons c cs =>
    unfold splitChars
    split
    · simp
    · cases splitChars sep cs <;> simp [consPiece]

/-- Nothing is lost: the pieces joined by the separator are the text. -/
theorem intercalate_splitChars (sep : Char) (s : List Char) :
    [sep].intercalate (splitChars sep s) = s := by
  induction s with
  | nil => simp [splitChars]
  | cons c cs ih =>
    obtain ⟨piece, rest, hp⟩ : ∃ piece rest, splitChars sep cs = piece :: rest :=
      List.exists_cons_of_ne_nil (splitChars_ne_nil sep cs)
    rw [hp] at ih
    by_cases h : c = sep
    · subst h
      simp only [splitChars, if_true, hp]
      rw [← ih]
      simp [List.intercalate, List.intersperse]
    · simp only [splitChars, if_neg h, hp, consPiece]
      rw [← ih]
      cases rest <;> simp [List.intercalate, List.intersperse]

end ProtoSchema.Text
