set_option autoImplicit false

/-! # Heads and tails of text

A text is looked at from its two ends: what follows a given head, and what comes before a given
tail. Both answers are exact, as the two `_eq_some_iff` lemmas say. -/

namespace ProtoSchema.Text

/-- The rest of a list after a given head. -/
def dropHead? : (head s : List Char) → Option (List Char)
  | [], s => some s
  | _ :: _, [] => none
  | a :: head, b :: s => if a = b then dropHead? head s else none

/-- The rest of `s` after `head`, if `s` starts with it. -/
def after? (head s : String) : Option String :=
  (dropHead? head.toList s.toList).map String.ofList

/-- The part of `s` before `tail`, if `s` ends with it. -/
def before? (tail s : String) : Option String :=
  (dropHead? tail.toList.reverse s.toList.reverse).map fun front => String.ofList front.reverse

/-- Whether `s` starts with `head`. -/
def startsWith (head s : String) : Bool :=
  (after? head s).isSome

/-- Whether `s` ends with `tail`. -/
def endsWith (tail s : String) : Bool :=
  (before? tail s).isSome

/-- The answer of `dropHead?` is exactly the rest. -/
theorem dropHead?_eq_some_iff (head s r : List Char) :
    dropHead? head s = some r ↔ s = head ++ r := by
  induction head generalizing s with
  | nil => simp [dropHead?]
  | cons a head ih =>
    cases s with
    | nil => simp [dropHead?]
    | cons b s =>
      by_cases h : a = b
      · subst h
        simp [dropHead?, ih]
      · simp [dropHead?, h, Ne.symm h]

/-- The answer of `after?` is exactly the rest. -/
theorem after?_eq_some_iff (head s r : String) : after? head s = some r ↔ s = head ++ r := by
  simp only [after?, Option.map_eq_some_iff, dropHead?_eq_some_iff]
  constructor
  · rintro ⟨t, ht, rfl⟩
    apply String.toList_injective
    simp [ht]
  · rintro rfl
    exact ⟨r.toList, by simp, by simp⟩

/-- The answer of `before?` is exactly the part in front. -/
theorem before?_eq_some_iff (tail s r : String) : before? tail s = some r ↔ s = r ++ tail := by
  simp only [before?, Option.map_eq_some_iff, dropHead?_eq_some_iff]
  constructor
  · rintro ⟨t, ht, rfl⟩
    apply String.toList_injective
    have h := congrArg List.reverse ht
    simpa using h
  · rintro rfl
    exact ⟨r.toList.reverse, by simp, by simp⟩

theorem startsWith_iff (head s : String) : startsWith head s = true ↔ head.toList <+: s.toList := by
  rw [startsWith, after?, Option.isSome_map, Option.isSome_iff_exists]
  simp only [dropHead?_eq_some_iff]
  exact exists_congr fun r => eq_comm

end ProtoSchema.Text
